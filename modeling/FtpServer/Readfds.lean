import FtpServer.Server

/-! The descriptors `ftpd_thread` waits for. `readfds` is kept from round to round; a node
that goes is cleared from it on one of the two ways a session ends. -/

namespace FtpServer
open Interaction CString Transition

abbrev FdSet := Int → Bool

def fdSet (fd : Int) (set : FdSet) : FdSet := Function.update set fd true

def fdClr (fd : Int) (set : FdSet) : FdSet := Function.update set fd false

/-- The loop over `conn_list` at the head of a round. -/
def setNodes (nodes : List Session) (readfds : FdSet) : FdSet :=
  nodes.foldl (fun readfds c => fdSet c.conn.sockfd readfds) readfds

def readfdsAfter (s : Server) (readfds : FdSet) : Action → FdSet
  | .idle | .walk _ => setNodes s.connList readfds
  | .accept _ fd _ => fdSet fd (setNodes s.connList readfds)
  | .disconnect =>
    match s.current with
    | some c => fdClr c.conn.sockfd readfds
    | none => readfds
  | .skip | .request _ | .finish => readfds

/-- A step of the server with its `readfds`. `accept` gives no connection on a listening
socket that has been closed. -/
def selectStep (w : Server × FdSet) (a : Action) (w' : Server × FdSet) : Prop :=
  serverStep w.1 a w'.1 ∧
  (∀ ready fd garbage, a = .accept ready fd garbage → w.1.sockets w.1.listener ≠ none) ∧
  w'.2 = readfdsAfter w.1 w.2 a

def listening (listener : Int) : Server × FdSet :=
  (started listener, fdSet listener (fun _ => false))

def Server.nodeFd (s : Server) (fd : Int) : Prop := ∃ c ∈ s.connList, c.conn.sockfd = fd

def SelectsNodes (w : Server × FdSet) : Prop :=
  ∀ fd, setNodes w.1.connList w.2 fd = true ↔ fd = w.1.listener ∨ w.1.nodeFd fd

theorem fdSet_eq_true {fd fd' : Int} {set : FdSet} :
    fdSet fd set fd' = true ↔ fd' = fd ∨ set fd' = true := by
  unfold fdSet
  by_cases h : fd' = fd
  · rw [h, Function.update_self]
    simp
  · rw [Function.update_of_ne h]
    simp [h]

theorem fdClr_eq_true {fd fd' : Int} {set : FdSet} :
    fdClr fd set fd' = true ↔ fd' ≠ fd ∧ set fd' = true := by
  unfold fdClr
  by_cases h : fd' = fd
  · rw [h, Function.update_self]
    simp
  · rw [Function.update_of_ne h]
    simp [h]

theorem setNodes_eq_true {nodes : List Session} {readfds : FdSet} {fd : Int} :
    setNodes nodes readfds fd = true ↔
      readfds fd = true ∨ ∃ c ∈ nodes, c.conn.sockfd = fd := by
  unfold setNodes
  induction nodes generalizing readfds with
  | nil => simp
  | cons c nodes ih =>
    rw [List.foldl_cons, ih, fdSet_eq_true]
    simp only [List.exists_mem_cons_iff, eq_comm (a := fd)]
    tauto

/-- What carries the set from round to round: the listening socket stays in it, nothing but
nodes is in it besides, and no node has the number of the listening socket. -/
structure SetRight (w : Server × FdSet) : Prop where
  listener : w.2 w.1.listener = true
  nodes : ∀ fd, w.2 fd = true → fd = w.1.listener ∨ w.1.nodeFd fd
  apart : ¬w.1.nodeFd w.1.listener

theorem setRight_listening (listener : Int) : SetRight (listening listener) where
  listener := by simp [listening, started, fdSet]
  nodes := by
    intro fd hfd
    rw [listening, fdSet_eq_true] at hfd
    exact hfd.imp_right fun hnone => by cases hnone
  apart := by simp [listening, started, Server.nodeFd, Server.connList]

theorem SetRight.selects {w : Server × FdSet} (h : SetRight w) : SelectsNodes w := by
  intro fd
  rw [setNodes_eq_true]
  constructor
  · rintro (hset | hnode)
    · exact h.nodes fd hset
    · exact .inr hnode
  · rintro (hsame | hnode)
    · rw [hsame]
      exact .inl h.listener
    · exact .inr hnode

theorem SetRight.setNodes {w w' : Server × FdSet} (h : SetRight w)
    (hlistener : w'.1.listener = w.1.listener) (hfds : ∀ fd, w'.1.nodeFd fd ↔ w.1.nodeFd fd)
    (hset : w'.2 = w.2 ∨ w'.2 = FtpServer.setNodes w.1.connList w.2) : SetRight w' := by
  have hsame : w'.2 w.1.listener = true ∧
      ∀ fd, w'.2 fd = true → fd = w.1.listener ∨ w.1.nodeFd fd := by
    rcases hset with hset | hset <;> rw [hset]
    · exact ⟨h.listener, h.nodes⟩
    · exact ⟨(h.selects _).mpr (.inl rfl), fun fd => (h.selects fd).mp⟩
  refine ⟨by rw [hlistener]; exact hsame.1, ?_, ?_⟩
  · intro fd hfd
    rw [hlistener, hfds]
    exact hsame.2 fd hfd
  · rw [hlistener, hfds]
    exact h.apart

theorem nodeFd_accepted (s : Server) (ready : Int → Bool) (fd : Int) (garbage : Conn)
    (fd' : Int) : (s.accepted ready fd garbage).nodeFd fd' ↔ fd' = fd ∨ s.nodeFd fd' := by
  simp only [Server.nodeFd, Server.connList, Server.accepted, List.mem_append, List.mem_cons]
  constructor
  · rintro ⟨c, hwalked | rfl | hahead, hfd⟩
    · exact .inr ⟨c, .inl hwalked, hfd⟩
    · exact .inl hfd.symm
    · exact .inr ⟨c, .inr hahead, hfd⟩
  · rintro (rfl | ⟨c, hwalked | hahead, hfd⟩)
    · exact ⟨_, .inr (.inl rfl), rfl⟩
    · exact ⟨c, .inl hwalked, hfd⟩
    · exact ⟨c, .inr (.inr hahead), hfd⟩

theorem SetRight.accept {w w' : Server × FdSet} (h : SetRight w) {ready : Int → Bool} {fd : Int}
    {garbage : Conn} (hfd : fd ≠ w.1.listener) (hs : w'.1 = w.1.accepted ready fd garbage)
    (hset : w'.2 = fdSet fd (FtpServer.setNodes w.1.connList w.2)) : SetRight w' := by
  have hlistener : w'.1.listener = w.1.listener := by rw [hs, Server.accepted]
  have hfds : ∀ fd', w'.1.nodeFd fd' ↔ fd' = fd ∨ w.1.nodeFd fd' := by
    intro fd'
    rw [hs, nodeFd_accepted]
  refine ⟨?_, ?_, ?_⟩
  · rw [hset, hlistener, fdSet_eq_true]
    exact .inr ((h.selects _).mpr (.inl rfl))
  · intro fd' hfd'
    rw [hset, fdSet_eq_true, h.selects] at hfd'
    rw [hlistener, hfds]
    tauto
  · rw [hlistener, hfds]
    rintro (hsame | hnode)
    · exact hfd hsame.symm
    · exact h.apart hnode

theorem SetRight.disconnect {w w' : Server × FdSet} (h : SetRight w) {c : Session}
    {rest : List Session} (hahead : w.1.ahead = c :: rest) (hs : w'.1 = w.1.destroy c rest)
    (hset : w'.2 = fdClr c.conn.sockfd w.2) : SetRight w' := by
  have hin := mem_connList hahead
  have hlistener : w'.1.listener = w.1.listener := by rw [hs, Server.destroy]
  have hgone : ∀ x, x ∈ w'.1.connList ↔ x ∈ w.1.walked.reverse ++ rest := by
    intro x
    rw [hs, Server.connList, Server.destroy]
  have hcurrent : w.1.nodeFd c.conn.sockfd := ⟨c, (hin c).mpr (.inl rfl), rfl⟩
  refine ⟨?_, ?_, ?_⟩
  · rw [hset, hlistener, fdClr_eq_true]
    refine ⟨?_, h.listener⟩
    intro hsame
    exact h.apart (hsame ▸ hcurrent)
  · intro fd hfd
    rw [hset, fdClr_eq_true] at hfd
    rw [hlistener]
    rcases h.nodes fd hfd.2 with hsame | ⟨x, hx, hxfd⟩
    · exact .inl hsame
    · rcases (hin x).mp hx with rfl | hother
      · exact absurd hxfd.symm hfd.1
      · exact .inr ⟨x, (hgone x).mpr hother, hxfd⟩
  · rintro ⟨x, hx, hxfd⟩
    exact h.apart ⟨x, (hin x).mpr (.inr ((hgone x).mp hx)), hxfd.trans hlistener⟩

theorem nodeFd_pass {s : Server} {c c' : Session} {rest : List Session} {tbl : Table}
    (hahead : s.ahead = c :: rest) (hsockfd : c'.conn.sockfd = c.conn.sockfd) (fd : Int) :
    ((s.served c' rest tbl).pass c' rest).nodeFd fd ↔ s.nodeFd fd := by
  have hin := mem_connList hahead
  have hin' : ∀ x, x ∈ ((s.served c' rest tbl).pass c' rest).connList ↔
      x = c' ∨ x ∈ s.walked.reverse ++ rest := by
    intro x
    rw [connList_pass rfl]
    simp only [Server.connList, Server.served, List.mem_append, List.mem_cons]
    tauto
  constructor
  · rintro ⟨x, hx, hfd⟩
    rcases (hin' x).mp hx with rfl | hother
    · exact ⟨c, (hin c).mpr (.inl rfl), hsockfd.symm.trans hfd⟩
    · exact ⟨x, (hin x).mpr (.inr hother), hfd⟩
  · rintro ⟨x, hx, hfd⟩
    rcases (hin x).mp hx with rfl | hother
    · exact ⟨c', (hin' c').mpr (.inl rfl), hsockfd.trans hfd⟩
    · exact ⟨x, (hin' x).mpr (.inr hother), hfd⟩

theorem selectStep_right {w w' : Server × FdSet} {a : Action} (h : SetRight w)
    (hstays : ∀ req, a = .request req → ¬Ends req.cmd req.calls) (hstep : selectStep w a w') :
    SetRight w' := by
  obtain ⟨hserver, haccepts, hset⟩ := hstep
  cases a with
  | idle =>
    obtain ⟨-, hs⟩ := hserver
    exact h.setNodes (by rw [hs]) (by simp [hs]) (.inr hset)
  | walk ready =>
    obtain ⟨-, hs⟩ := hserver
    exact h.setNodes (by rw [hs]) (by simp [hs, Server.nodeFd, Server.connList]) (.inr hset)
  | accept ready fd garbage =>
    obtain ⟨-, -, hfree, hs⟩ := hserver
    have hopen := haccepts ready fd garbage rfl
    refine h.accept ?_ hs hset
    intro hsame
    exact hopen (hsame ▸ hfree)
  | skip =>
    obtain ⟨ready, c, rest, -, hahead, -, hs⟩ := hserver
    refine h.setNodes (by rw [hs, Server.pass]) ?_ (.inl hset)
    intro fd
    rw [Server.nodeFd, hs, connList_pass hahead, ← Server.nodeFd]
  | disconnect =>
    obtain ⟨ready, c, rest, -, hahead, -, hs⟩ := hserver
    refine h.disconnect hahead hs ?_
    rw [hset, readfdsAfter, Server.current, hahead]
    rfl
  | request req =>
    obtain ⟨ready, c, rest, conn, ret, sockets, -, hahead, -, -, hserves, -, hs⟩ := hserver
    have hret : ret ≠ -1 := fun hret =>
      hstays req rfl ((serves_ends_iff hserves).mp hret)
    rw [if_neg hret] at hs
    refine h.setNodes (by rw [hs]; rfl) ?_ (.inl hset)
    intro fd
    rw [hs]
    exact nodeFd_pass hahead hserves.sockfd fd
  | finish =>
    obtain ⟨ready, -, hahead, hs⟩ := hserver
    refine h.setNodes (by rw [hs]) ?_ (.inl hset)
    intro fd
    simp [Server.nodeFd, Server.connList, hs, hahead]

/-- In every run in which no request ends its session, `select` is always called with the
listening socket and the nodes. -/
theorem select_set_right {listener : Int} {as : List Action} {w : Server × FdSet}
    (hrun : Follows (Where (fun _ a => ∀ req, a = .request req → ¬Ends req.cmd req.calls)
      selectStep) (listening listener) as w) :
    w.1.phase = .waiting → SelectsNodes w := by
  have hright : SetRight w := by
    apply Follows.invariant SetRight _ hrun (setRight_listening listener)
    exact fun w a w' h hstep => selectStep_right h hstep.1 hstep.2
  exact fun _ => hright.selects

def allReady (_ : Int) : Bool := true

def thirdReady (fd : Int) : Bool := fd = 3

theorem follows_gone : ∃ w, Follows
    (Where (fun _ a => ∀ req, a = .request req → ¬Ends req.cmd req.calls) selectStep)
    (listening 0) [.accept allReady 1 justAccepted, .request portAnswered, .finish,
      .accept thirdReady 3 justAccepted, .disconnect, .skip, .finish] w ∧
    w.1.phase = .waiting ∧ w.1.connList = [⟨0, connected, true⟩] := by
  have hstays : ¬Ends portAnswered.cmd portAnswered.calls :=
    (serves_ends_iff serves_portAnswered).not.mp (by decide)
  refine ⟨(_, _), ⟨(_, _), ⟨by simp, ⟨rfl, by decide, rfl, rfl⟩, ?_, rfl⟩,
    (_, _), ⟨by simpa using hstays, ⟨⟨allReady, _, _, connected, 0, _, rfl, rfl, rfl, by decide,
      serves_portAnswered, follows_portAnswered rfl, rfl⟩, by simp, rfl⟩⟩,
    (_, _), ⟨by simp, ⟨allReady, rfl, rfl, rfl⟩, by simp, rfl⟩,
    (_, _), ⟨by simp, ⟨rfl, by decide, rfl, rfl⟩, ?_, rfl⟩,
    (_, _), ⟨by simp, ⟨thirdReady, _, _, rfl, rfl, by decide, rfl⟩, by simp, rfl⟩,
    (_, _), ⟨by simp, ⟨thirdReady, _, _, rfl, rfl, by decide, rfl⟩, by simp, rfl⟩,
    (_, _), ⟨by simp, ⟨thirdReady, rfl, rfl, rfl⟩, by simp, rfl⟩, rfl⟩, rfl, rfl⟩
  · simp [listening, started]
  · intro _ _ _ _ hclosed
    cases hclosed

theorem select_set_right_gone : ∃ w : Server × FdSet, Follows
    (Where (fun _ a => ∀ req, a = .request req → ¬Ends req.cmd req.calls) selectStep)
    (listening 0) [.accept allReady 1 justAccepted, .request portAnswered, .finish,
      .accept thirdReady 3 justAccepted, .disconnect, .skip, .finish] w ∧
    w.1.phase = .waiting ∧ w.1.connList = [⟨0, connected, true⟩] ∧ SelectsNodes w := by
  obtain ⟨w, hw, hphase, hnodes⟩ := follows_gone
  exact ⟨w, hw, hphase, hnodes, select_set_right hw hphase⟩

theorem serves_quitting : Serves (newConn justAccepted 1) quitting (newConn justAccepted 1) (-1) :=
  serves_of_replay 0 rfl

theorem follows_quit : ∃ w, Follows selectStep (listening 0)
    [.accept allReady 1 justAccepted, .request quitting, .finish] w ∧
    w.1.phase = .waiting ∧ w.1.connList = [] ∧ w.1.listener = 0 ∧ w.2 1 = true := by
  refine ⟨(_, _), ⟨(_, _), ⟨⟨rfl, by decide, rfl, rfl⟩, ?_, rfl⟩,
    (_, _), ⟨⟨allReady, _, _, _, -1, _, rfl, rfl, rfl, by decide, serves_quitting,
      ⟨_, rfl, _, rfl, rfl⟩, rfl⟩, by simp, rfl⟩,
    (_, _), ⟨⟨allReady, rfl, rfl, rfl⟩, by simp, rfl⟩, rfl⟩, rfl, rfl, rfl, rfl⟩
  simp [listening, started]

/-- The descriptor of a session that quit is still waited for. -/
theorem quit_stays_selected :
    ¬∀ listener as (w : Server × FdSet), Follows selectStep (listening listener) as w →
      w.1.phase = .waiting → SelectsNodes w := by
  intro h
  obtain ⟨w, hw, hphase, hnodes, hlistener, hset⟩ := follows_quit
  have hstale := (h 0 _ w hw hphase 1).mp (setNodes_eq_true.mpr (.inl hset))
  simp [hlistener, Server.nodeFd, hnodes] at hstale

end FtpServer
