import FtpServer.Isolation

/-! Sockets that nobody closes. PORT and PASV overwrite `pasv_sockfd`, and a session that ends
closes its control connection only. -/

namespace FtpServer
open Interaction CString Transition

def Table.FreeOf (tbl : Table) (id : Nat) : Prop :=
  ∀ fd owner, tbl fd = some owner → ¬owner.Mine id

/-- All that the session owns besides its control connection is the data connection it has. -/
def Table.Holds (tbl : Table) (id : Nat) (pasvSockfd : Int) (live : Bool) : Prop :=
  ∀ fd owner, tbl fd = some owner → owner.Mine id →
    owner = .data id ∧ fd = pasvSockfd ∧ live = true

theorem Table.Holds.freeOf {tbl : Table} {id : Nat} {pasvSockfd : Int} {live : Bool}
    (h : tbl.Holds id pasvSockfd live) (hlive : live = false) : tbl.FreeOf id := by
  intro fd owner hfd hmine
  rw [(h fd owner hfd hmine).2.2] at hlive
  cases hlive

theorem Table.FreeOf.holds {tbl : Table} {id : Nat} (h : tbl.FreeOf id) (pasvSockfd : Int)
    (live : Bool) : tbl.Holds id pasvSockfd live :=
  fun fd owner hfd hmine => absurd hmine (h fd owner hfd)

theorem Table.FreeOf.opened {tbl : Table} {id : Nat} (h : tbl.FreeOf id) (fd : Int) :
    Table.Holds (Function.update tbl fd (some (.data id))) id fd true := by
  intro fd' owner hfd' hmine
  by_cases hsame : fd' = fd
  · subst hsame
    rw [Function.update_self] at hfd'
    exact ⟨(Option.some.inj hfd').symm, rfl, rfl⟩
  · rw [Function.update_of_ne hsame] at hfd'
    exact absurd hmine (h fd' owner hfd')

theorem Table.Holds.close {tbl : Table} {id : Nat} {pasvSockfd : Int} {live : Bool}
    (h : tbl.Holds id pasvSockfd live) : (tbl.close pasvSockfd).FreeOf id := by
  intro fd owner hfd hmine
  by_cases hsame : fd = pasvSockfd
  · rw [hsame, Table.close_self] at hfd
    cases hfd
  · rw [Table.close_of_ne _ hsame] at hfd
    exact hsame (h fd owner hfd hmine).2.1

/-- What a request must not do: open a data connection beside the one there is, leave the
socket it listens on, or end the session with a data connection open. -/
structure TidyRequest (live : Bool) (cmd : Cmd) (calls : List CallEvent) : Prop where
  port : cmd = .port → (∃ fd, ⟨.socket, fd⟩ ∈ calls) → live = false
  pasv : cmd = .pasv → (∃ fd, fd ≠ -1 ∧ ⟨.socket, fd⟩ ∈ calls) →
    live = false ∧ ∃ fd answer, ⟨.accept fd, answer⟩ ∈ calls ∧ 0 ≤ answer.sock
  ends : cmd = .quit ∨ ⟨.malloc, false⟩ ∈ calls → live = false

theorem TidyRequest.socketCalls {live : Bool} {cmd : Cmd} {t : List CallEvent}
    (h : TidyRequest live cmd t) : TidyRequest live cmd (socketCalls t) where
  port := by
    rintro hcmd ⟨fd, hfd⟩
    exact h.port hcmd ⟨fd, (List.mem_filter.mp hfd).1⟩
  pasv := by
    rintro hcmd ⟨fd, hne, hfd⟩
    obtain ⟨hlive, fd', answer, haccept, hsock⟩ :=
      h.pasv hcmd ⟨fd, hne, (List.mem_filter.mp hfd).1⟩
    exact ⟨hlive, fd', answer, List.mem_filter.mpr ⟨haccept, rfl⟩, hsock⟩
  ends := by
    intro hends
    exact h.ends (hends.imp_right fun hfailed => (List.mem_filter.mp hfailed).1)

theorem SocketUse.holds {id : Nat} {cmd : Cmd} {tbl tbl' : Table} {old new : Int}
    {calls : List CallEvent} {live : Bool} (huse : SocketUse old cmd calls new)
    (hold : tbl.Holds id old live) (htidy : TidyRequest live cmd calls)
    (h : Follows (socketStep id cmd) tbl calls tbl') :
    tbl'.Holds id new (liveAfter calls live) := by
  cases huse with
  | quiet =>
    obtain rfl : tbl' = tbl := h
    simpa [liveAfter] using hold
  | transferred cmd uses k hcmd huses =>
    obtain ⟨v, hf, w, hclose, rfl⟩ := (follows_append _ _ _ _).mp h
    obtain rfl := huses.table hf
    obtain rfl : tbl' = v.close old := hclose
    exact hold.close.holds _ _
  | portFailed fd k =>
    obtain ⟨v, hopen, w, hclose, rfl⟩ := h
    obtain rfl : tbl' = v.close _ := hclose
    have hfree := hold.freeOf (htidy.port rfl ⟨_, List.mem_cons_self⟩)
    rcases hopen with ⟨-, rfl⟩ | ⟨-, -, rfl⟩
    · exact (hfree.holds _ false).close.holds _ _
    · exact (hfree.opened _).close.holds _ _
  | portConnected fd hfd =>
    obtain ⟨v, hopen, rfl⟩ := h
    have hfree := hold.freeOf (htidy.port rfl ⟨_, List.mem_cons_self⟩)
    rcases hopen with ⟨hnone, -⟩ | ⟨-, -, rfl⟩
    · exact absurd hnone hfd
    · exact hfree.opened _
  | pasvUnanswered fd k =>
    obtain ⟨v, hopen, w, hclose, rfl⟩ := h
    obtain rfl : tbl' = v.close old := hclose
    rcases hopen with ⟨-, rfl⟩ | ⟨hpos, -, -⟩
    · exact hold.close.holds _ _
    · have hfd : fd ≠ -1 := by
        rintro rfl
        exact absurd hpos (by decide)
      obtain ⟨-, fd', answer, haccept, -⟩ := htidy.pasv rfl ⟨fd, hfd, by simp⟩
      simp at haccept
  | pasvNotAccepted fd k answer hfd hsock =>
    obtain ⟨-, fd', answer', haccept, hsock'⟩ := htidy.pasv rfl ⟨fd, hfd, by simp⟩
    obtain ⟨rfl, hanswer⟩ : fd' = fd ∧ HEq answer' answer := by simpa using haccept
    obtain rfl : answer' = answer := eq_of_heq hanswer
    omega
  | pasvUnbound fd j k answer hfd hsock =>
    obtain ⟨v, hopen, w, haccept, x, hclose, y, hclose', rfl⟩ := h
    obtain ⟨-, -, htable⟩ := accepted_table hfd hsock hopen haccept
    obtain rfl : x = w.close fd := hclose
    obtain rfl : tbl' = (w.close fd).close answer.sock := hclose'
    have hfree := hold.freeOf (htidy.pasv rfl ⟨fd, hfd, by simp⟩).1
    rw [htable]
    exact (hfree.opened answer.sock).close.holds _ _
  | pasvAccepted fd j answer hfd hsock =>
    obtain ⟨v, hopen, w, haccept, x, hclose, rfl⟩ := h
    obtain ⟨-, -, htable⟩ := accepted_table hfd hsock hopen haccept
    obtain rfl : tbl' = w.close fd := hclose
    have hfree := hold.freeOf (htidy.pasv rfl ⟨fd, hfd, by simp⟩).1
    rw [htable]
    exact hfree.opened answer.sock

theorem serves_holds {conn conn' : Conn} {req : Request} {ret : Int} {id : Nat}
    {tbl tbl' : Table} {live : Bool} (h : Serves conn req conn' ret)
    (hold : tbl.Holds id conn.pasvSockfd live) (htidy : TidyRequest live req.cmd req.calls)
    (hf : Follows (socketStep id req.cmd) tbl req.calls tbl') :
    tbl'.Holds id conn'.pasvSockfd (liveAfter req.calls live) := by
  rw [← liveAfter_socketCalls]
  exact (serves_socketUse h).holds hold htidy.socketCalls ((follows_socketCalls _ _ _).mpr hf)

theorem serves_ends {conn conn' : Conn} {req : Request} {live : Bool}
    (h : Serves conn req conn' (-1)) (htidy : TidyRequest live req.cmd req.calls) :
    liveAfter req.calls live = false := by
  rcases serves_cases h with ⟨hcalls, -⟩ | ⟨fuel, t, hcalls, hrun⟩
  · have hlive := htidy.ends (.inr (by simp [hcalls]))
    simp [liveAfter, hcalls, hlive]
  · obtain ⟨hends, hcloses⟩ :=
      dispatch_ends fuel conn _ req.cmd req.parameter t _ hrun conn' (-1) rfl
    rcases hends.mp rfl with hquit | hfails
    · have huse := serves_socketUse h
      have hlive := htidy.ends (.inl hquit)
      rw [← liveAfter_socketCalls]
      generalize socketCalls req.calls = calls, conn'.pasvSockfd = new at huse
      rw [hquit] at huse
      cases huse with
      | quiet => simp [liveAfter, hlive]
      | transferred _ _ _ hcmd _ => exact hcmd.elim
    · simp [liveAfter, hcalls, hcloses hfails]

/-- Every open descriptor is the listening socket, or the control or data connection of a
node. -/
def Accounted (s : Server) : Prop :=
  ∀ fd owner, s.sockets fd = some owner → (fd = s.listener ∧ owner = .listener) ∨
    ∃ c ∈ s.connList, (fd = c.conn.sockfd ∧ owner = .control c.id) ∨
      (fd = c.conn.pasvSockfd ∧ owner = .data c.id ∧ c.live = true)

/-- No socket is lost: what is open is the listening socket, one control connection for each
node of `conn_list`, and at most one data connection for each, at its `pasv_sockfd`. A session
that ended has nothing open, as its number is not given again. -/
structure NoLeak (s : Server) : Prop where
  listener : s.sockets s.listener = some .listener
  control : ∀ c ∈ s.connList, s.sockets c.conn.sockfd = some (.control c.id)
  nothingElse : ∀ fd owner, s.sockets fd = some owner → (fd = s.listener ∧ owner = .listener) ∨
    ∃ c ∈ s.connList, (fd = c.conn.sockfd ∧ owner = .control c.id) ∨
      (fd = c.conn.pasvSockfd ∧ owner = .data c.id)
  ids : (s.connList.map Session.id).Nodup
  ended : ∀ id < s.next, (∀ c ∈ s.connList, c.id ≠ id) →
    ∀ fd, s.sockets fd ≠ some (.control id) ∧ s.sockets fd ≠ some (.data id) ∧
      s.sockets fd ≠ some (.passive id)

theorem Accounted.noLeak {s : Server} (h : Accounted s) (hsafe : Safe s) : NoLeak s where
  listener := hsafe.listener
  control := hsafe.control
  ids := hsafe.ids
  nothingElse := by
    intro fd owner hfd
    refine (h fd owner hfd).imp_right ?_
    rintro ⟨c, hc, hcontrol | ⟨hpasv, howner, -⟩⟩
    · exact ⟨c, hc, .inl hcontrol⟩
    · exact ⟨c, hc, .inr ⟨hpasv, howner⟩⟩
  ended := by
    intro id _ hended fd
    have hnone : ∀ owner, s.sockets fd = some owner →
        owner ≠ .control id ∧ owner ≠ .data id ∧ owner ≠ .passive id := by
      intro owner hfd
      rcases h fd owner hfd with ⟨-, rfl⟩ | ⟨c, hc, ⟨-, rfl⟩ | ⟨-, rfl, -⟩⟩
      · simp
      · simpa using hended c hc
      · simpa using hended c hc
    exact ⟨fun hfd => (hnone _ hfd).1 rfl, fun hfd => (hnone _ hfd).2.1 rfl,
      fun hfd => (hnone _ hfd).2.2 rfl⟩

theorem accounted_started (listener : Int) : Accounted (started listener) := by
  intro fd owner hfd
  by_cases hlistener : fd = listener
  · simp only [started, hlistener, if_true] at hfd
    exact .inl ⟨hlistener, (Option.some.inj hfd).symm⟩
  · simp [started, hlistener] at hfd

theorem Accounted.of_nodes {s s' : Server} (h : Accounted s) (hsockets : s'.sockets = s.sockets)
    (hlistener : s'.listener = s.listener) (hnodes : s'.connList = s.connList) :
    Accounted s' := by
  unfold Accounted
  rw [hsockets, hlistener, hnodes]
  exact h

theorem Accounted.accept {s : Server} (h : Accounted s) (ready : Int → Bool) (fd : Int)
    (garbage : Conn) : Accounted (s.accepted ready fd garbage) := by
  intro fd' owner hfd'
  by_cases hsame : fd' = fd
  · subst hsame
    have howner : some (Owner.control s.next) = some owner :=
      (Function.update_self fd' _ s.sockets).symm.trans hfd'
    refine .inr ⟨⟨s.next, newConn garbage fd', false⟩, by simp [Server.connList, Server.accepted],
      .inl ⟨rfl, (Option.some.inj howner).symm⟩⟩
  · have hold : s.sockets fd' = some owner :=
      (Function.update_of_ne hsame _ s.sockets).symm.trans hfd'
    refine (h fd' owner hold).imp_right ?_
    rintro ⟨c, hc, hfd⟩
    refine ⟨c, ?_, hfd⟩
    simp only [Server.connList, Server.accepted, List.mem_append, List.mem_cons] at hc ⊢
    tauto

section Current
variable {s : Server} {c : Session} {rest : List Session} (hahead : s.ahead = c :: rest)
include hahead

theorem Accounted.holds (h : Accounted s) (hsafe : Safe s) :
    s.sockets.Holds c.id c.conn.pasvSockfd c.live := by
  intro fd owner hfd hmine
  rcases h fd owner hfd with ⟨-, rfl⟩ | ⟨x, hx, ⟨-, rfl⟩ | ⟨rfl, rfl, hlive⟩⟩
  · simp [Owner.Mine] at hmine
  · simp [Owner.Mine] at hmine
  · have hid : x.id = c.id := by simpa [Owner.Mine] using hmine
    rcases (mem_connList hahead x).mp hx with rfl | hother
    · exact ⟨rfl, rfl, hlive⟩
    · exact absurd hid (hsafe.ne_of_other hahead hother)

theorem Accounted.destroy (h : Accounted s) (hsafe : Safe s) (hlive : c.live = false) :
    Accounted (s.destroy c rest) := by
  have hfree := (h.holds hahead hsafe).freeOf hlive
  have hc := hsafe.control c ((mem_connList hahead c).mpr (.inl rfl))
  intro fd owner hfd
  have hne : fd ≠ c.conn.sockfd := by
    rintro rfl
    simp [Server.destroy, Table.close_self] at hfd
  have hold : s.sockets fd = some owner := (s.sockets.close_of_ne hne).symm.trans hfd
  refine (h fd owner hold).imp_right ?_
  rintro ⟨x, hx, howned⟩
  rcases (mem_connList hahead x).mp hx with rfl | hother
  · rcases howned with ⟨hsockfd, -⟩ | ⟨-, howner, -⟩
    · exact absurd hsockfd hne
    · exact absurd (.inl howner) (hfree fd owner hold)
  · exact ⟨x, hother, howned⟩

theorem Accounted.served (h : Accounted s) {c' : Session} {tbl : Table}
    (hkeeps : KeepsOthers c.id s.sockets tbl) (hid : c'.id = c.id)
    (hsockfd : c'.conn.sockfd = c.conn.sockfd)
    (hholds : tbl.Holds c.id c'.conn.pasvSockfd c'.live) :
    Accounted (s.served c' rest tbl) := by
  have hin : ∀ x, x = c' ∨ x ∈ s.walked.reverse ++ rest → x ∈ (s.served c' rest tbl).connList := by
    intro x hx
    simp only [Server.connList, Server.served, List.mem_append, List.mem_cons] at hx ⊢
    tauto
  intro fd owner hfd
  by_cases hmine : owner.Mine c.id
  · obtain ⟨howner, hpasv, hlive⟩ := hholds fd owner hfd hmine
    exact .inr ⟨c', hin c' (.inl rfl), .inr ⟨hpasv, by rw [howner, hid], hlive⟩⟩
  · refine (h fd owner ((hkeeps fd owner hmine).mp hfd)).imp_right ?_
    rintro ⟨x, hx, howned⟩
    rcases (mem_connList hahead x).mp hx with rfl | hother
    · refine ⟨c', hin c' (.inl rfl), .inl ?_⟩
      rcases howned with ⟨hfd, howner⟩ | ⟨-, howner, -⟩
      · exact ⟨by rw [hfd, hsockfd], by rw [howner, hid]⟩
      · exact absurd (.inl howner) hmine
    · exact ⟨x, hin x (.inr hother), howned⟩

end Current

structure Tidy (s : Server) (a : Action) : Prop where
  careful : Careful s a
  disconnect : a = .disconnect → ∀ c, s.current = some c → c.live = false
  request : ∀ req c, a = .request req → s.current = some c →
    TidyRequest c.live req.cmd req.calls

theorem serverStep_accounted (s : Server) (a : Action) (s' : Server)
    (h : Safe s ∧ Accounted s) (htidy : Tidy s a) (hstep : serverStep s a s') :
    Safe s' ∧ Accounted s' := by
  obtain ⟨hsafe, haccounted⟩ := h
  refine ⟨(serverStep_isolated s a s' hsafe htidy.careful hstep).2, ?_⟩
  cases a with
  | idle =>
    obtain ⟨-, rfl⟩ := hstep
    exact haccounted
  | walk ready =>
    obtain ⟨-, rfl⟩ := hstep
    exact haccounted.of_nodes rfl rfl rfl
  | accept ready fd garbage =>
    obtain ⟨-, -, -, rfl⟩ := hstep
    exact haccounted.accept ready fd garbage
  | skip =>
    obtain ⟨ready, c, rest, -, hahead, -, rfl⟩ := hstep
    exact haccounted.of_nodes rfl rfl (connList_pass hahead)
  | disconnect =>
    obtain ⟨ready, c, rest, -, hahead, -, rfl⟩ := hstep
    have hlive := htidy.disconnect rfl c (by rw [Server.current, hahead]; rfl)
    exact haccounted.destroy hahead hsafe hlive
  | finish =>
    obtain ⟨ready, -, hahead, rfl⟩ := hstep
    exact haccounted.of_nodes rfl rfl (by simp [Server.connList, hahead])
  | request req =>
    obtain ⟨ready, c, rest, conn, ret, tbl, -, hahead, -, -, hserves, hf, rfl⟩ := hstep
    have hrequest := htidy.request req c rfl (by rw [Server.current, hahead]; rfl)
    obtain ⟨-, hkeeps, hsafe'⟩ := careful_request hsafe hahead htidy.careful hserves hf
    have hholds := serves_holds hserves (haccounted.holds hahead hsafe) hrequest hf
    have hserved : Accounted (s.served (c.after req.calls conn) rest tbl) :=
      haccounted.served hahead hkeeps rfl hserves.sockfd hholds
    split
    · rename_i hret
      subst hret
      exact hserved.destroy rfl hsafe' (serves_ends hserves hrequest)
    · exact hserved.of_nodes rfl rfl (connList_pass rfl)

/-- As long as every step is tidy, no socket is lost. -/
theorem no_socket_lost {listener : Int} (hlistener : 0 ≤ listener) {as : List Action} {s : Server}
    (h : Follows (Where Tidy serverStep) (started listener) as s) : NoLeak s := by
  have hinv : Safe s ∧ Accounted s := by
    apply Follows.invariant (fun s => Safe s ∧ Accounted s) _ h
    · exact ⟨safe_started hlistener, accounted_started listener⟩
    · intro v a w hv hw
      exact serverStep_accounted v a w hv hw.1 hw.2
  exact hinv.2.noLeak hinv.1

theorem tidy_of_idle {s : Server} {a : Action} (hrequest : ∀ req, a ≠ .request req)
    (hdisconnect : a ≠ .disconnect) : Tidy s a where
  careful := careful_of_not_request hrequest
  disconnect := fun h => absurd h hdisconnect
  request := fun req _ h => absurd h (hrequest req)

theorem tidy_portAnswered {s : Server} {c : Session} (hcurrent : s.current = some c)
    (hlive : c.live = false) : Tidy s (.request portAnswered) where
  careful := careful_port rfl
  disconnect := by simp
  request := by
    intro req c' ha hcurrent'
    obtain rfl : portAnswered = req := Action.request.inj ha
    obtain rfl : c = c' := Option.some.inj (hcurrent.symm.trans hcurrent')
    refine ⟨fun _ _ => hlive, ?_, fun _ => hlive⟩
    intro hcmd
    cases hcmd

theorem tidy_listUnreadable {s : Server} {c : Session} (hcurrent : s.current = some c)
    (hlive : c.live = true) : Tidy s (.request listUnreadable) where
  careful := careful_live hcurrent hlive
  disconnect := by simp
  request := by
    intro req c' ha _
    obtain rfl : listUnreadable = req := Action.request.inj ha
    refine ⟨?_, ?_, ?_⟩
    · intro hcmd
      cases hcmd
    · intro hcmd
      cases hcmd
    · rintro (hcmd | hfailed)
      · cases hcmd
      · simp [listUnreadable] at hfailed

theorem no_socket_lost_listed : ∃ s, s.walked = [⟨0, listed, false⟩] ∧ NoLeak s := by
  obtain ⟨s, hs, hphase, hahead, hwalked, -⟩ := follows_connected
    (fun _ _ hrequest hdisconnect => tidy_of_idle hrequest hdisconnect)
    (fun _ _ hcurrent hlive => tidy_portAnswered hcurrent hlive)
  have hcurrent : s.current = some ⟨0, connected, true⟩ := by rw [Server.current, hahead]; rfl
  have hrun := hs.snoc ⟨tidy_listUnreadable hcurrent rfl, step_listUnreadable hphase hahead⟩
  refine ⟨_, ?_, no_socket_lost (le_refl 0) hrun⟩
  simp [Server.pass, Server.served, hwalked]

/-- A client that goes before it has used its data connection leaves it open. -/
theorem socket_outlives_session :
    ¬∀ listener as s, 0 ≤ listener → Follows serverStep (started listener) as s → NoLeak s := by
  intro h
  obtain ⟨s, hs, hphase, hahead, hwalked, hdata⟩ :=
    @follows_connected (fun _ _ => True) (fun _ _ _ _ => trivial) (fun _ _ _ _ => trivial)
  have hstep : serverStep s .disconnect (s.destroy ⟨0, connected, true⟩ []) :=
    ⟨firstReady, _, [], hphase, hahead, by decide, rfl⟩
  have hplain : Follows serverStep _ _ s := hs.mono (fun _ _ _ hstep => hstep.2)
  have hnoLeak := h 0 _ _ (le_refl 0) (hplain.snoc hstep)
  have hopen : (s.destroy ⟨0, connected, true⟩ []).sockets 2 = some (.data 0) := by
    have hne : (2 : Int) ≠ connected.sockfd := by decide
    exact (s.sockets.close_of_ne hne).trans hdata
  rcases hnoLeak.nothingElse 2 _ hopen with ⟨-, howner⟩ | ⟨c, hc, -⟩
  · cases howner
  · simp [Server.connList, Server.destroy, hwalked] at hc

end FtpServer
