import FtpServer.Server

/-! Sessions and each other's sockets: `pasv_sockfd` is set by PORT and PASV only, and keeps
its number after the descriptor was closed. -/

namespace FtpServer
open Interaction CString Transition

/-- A request that touches the descriptor it finds in `pasv_sockfd` is sent with a data
connection open, or while the number stands for nothing. -/
def Careful (s : Server) (a : Action) : Prop :=
  ∀ req c, a = .request req → s.current = some c → TouchesOld req.cmd req.calls →
    c.live = true ∨ s.sockets c.conn.pasvSockfd = none ∧
      (c.conn.pasvSockfd < 0 ∨ ⟨.socket, c.conn.pasvSockfd⟩ ∉ req.calls)

/-- While a session is served, `pasv_sockfd` stands for its own data socket or for nothing in
each call that uses it. -/
def Isolated (s : Server) (a : Action) : Prop :=
  ∀ req c, a = .request req → s.current = some c →
    ∃ tbl, Follows (Where (OnData c.id) (socketStep c.id req.cmd)) s.sockets req.calls tbl

theorem touchesOld_socketCalls (cmd : Cmd) (t : List CallEvent) :
    TouchesOld cmd (socketCalls t) ↔ TouchesOld cmd t := by
  have hkept : ∀ e ∈ t, e ∈ socketCalls t ∨ concernsData e = false := by
    intro e he
    cases hconcerns : concernsData e with
    | true => exact .inl (List.mem_filter.mpr ⟨he, hconcerns⟩)
    | false => exact .inr rfl
  have hsub : ∀ e ∈ socketCalls t, e ∈ t := fun e he => (List.mem_filter.mp he).1
  have haccepts : (∀ e ∈ socketCalls t, accepts e = false) ↔ ∀ e ∈ t, accepts e = false := by
    constructor
    · intro h e he
      rcases hkept e he with hin | hout
      · exact h e hin
      · exact (concernsData_eq_false.mp hout).2.2.1
    · exact fun h e he => h e (hsub e he)
  have hpasv : (∃ e ∈ socketCalls t, (onPasv e).isSome) ↔ ∃ e ∈ t, (onPasv e).isSome := by
    constructor
    · rintro ⟨e, he, hfd⟩
      exact ⟨e, hsub e he, hfd⟩
    · rintro ⟨e, he, hfd⟩
      rcases hkept e he with hin | hout
      · exact ⟨e, hin, hfd⟩
      · rw [(concernsData_eq_false.mp hout).1] at hfd
        cases hfd
  unfold TouchesOld
  rw [haccepts, hpasv]

theorem socketStep_other {id : Nat} {cmd : Cmd} {tbl tbl' : Table} {e : CallEvent}
    (h : concernsData e = false) : socketStep id cmd tbl e tbl' ↔ tbl' = tbl := by
  obtain ⟨-, hopens, haccepts, hcloses⟩ := concernsData_eq_false.mp h
  unfold socketStep
  split
  · simp at hopens
  · simp at haccepts
  · simp at hcloses
  · exact Iff.rfl

theorem follows_socketCalls {id : Nat} {cmd : Cmd} (tbl tbl' : Table) (t : List CallEvent) :
    Follows (socketStep id cmd) tbl (socketCalls t) tbl' ↔
      Follows (socketStep id cmd) tbl t tbl' := by
  refine follows_filter ?_ tbl tbl' t
  intro v e w h
  exact socketStep_other h

theorem follows_onData_socketCalls {id : Nat} {cmd : Cmd} (tbl tbl' : Table)
    (t : List CallEvent) :
    Follows (Where (OnData id) (socketStep id cmd)) tbl (socketCalls t) tbl' ↔
      Follows (Where (OnData id) (socketStep id cmd)) tbl t tbl' := by
  refine follows_filter ?_ tbl tbl' t
  intro v e w h
  have hpasv := (concernsData_eq_false.mp h).1
  have hdata : OnData id v e := by
    intro fd hfd
    rw [hpasv] at hfd
    cases hfd
  unfold Where
  rw [socketStep_other h]
  exact and_iff_right hdata

theorem careful_request {s : Server} (h : Safe s) {c : Session} {rest : List Session}
    (hahead : s.ahead = c :: rest) {req : Request} (hcareful : Careful s (.request req))
    {conn : Conn} {ret : Int} (hserves : Serves c.conn req conn ret) {tbl : Table}
    (hf : Follows (socketStep c.id req.cmd) s.sockets req.calls tbl) :
    Follows (Where (OnData c.id) (socketStep c.id req.cmd)) s.sockets req.calls tbl ∧
      KeepsOthers c.id s.sockets tbl ∧ Safe (s.served (c.after req.calls conn) rest tbl) := by
  have hin : c ∈ s.connList := (mem_connList hahead c).mpr (.inl rfl)
  have huse := serves_socketUse hserves
  have hcalls := (follows_socketCalls s.sockets tbl req.calls).mpr hf
  have hproper := huse.proper h.sane ?_ hcalls
  · have hkeeps := socketCalls_keep hproper h.sane
    have hdata : Follows (Where (OnData c.id) (socketStep c.id req.cmd)) s.sockets
        (socketCalls req.calls) tbl := hproper.mono (fun _ _ _ hstep => ⟨hstep.1.1, hstep.2⟩)
    refine ⟨(follows_onData_socketCalls _ _ _).mp hdata, hkeeps.1, ?_⟩
    refine h.served hahead hkeeps.1 hkeeps.2 rfl ?_ ?_
    · exact hserves.sockfd
    · intro hlive
      rw [Session.after, ← liveAfter_socketCalls] at hlive
      exact huse.live (h.data c hin) hcalls hlive
  · intro htouches
    rw [touchesOld_socketCalls] at htouches
    rcases hcareful req c rfl (by rw [Server.current, hahead]; rfl) htouches with hlive | hnone
    · exact .inl (h.data c hin hlive)
    · refine .inr ⟨hnone.1, hnone.2.imp_right ?_⟩
      intro hnot hmem
      exact hnot (List.mem_filter.mp hmem).1

theorem serverStep_isolated (s : Server) (a : Action) (s' : Server) (h : Safe s)
    (hcareful : Careful s a) (hstep : serverStep s a s') : Isolated s a ∧ Safe s' := by
  have hother : (∀ req, a ≠ .request req) → Isolated s a :=
    fun hne req c ha => absurd ha (hne req)
  cases a with
  | idle =>
    obtain ⟨-, rfl⟩ := hstep
    exact ⟨hother (by simp), h⟩
  | walk ready =>
    obtain ⟨-, rfl⟩ := hstep
    exact ⟨hother (by simp), h.of_nodes rfl rfl rfl rfl⟩
  | accept ready fd garbage =>
    obtain ⟨-, hpos, hfree, rfl⟩ := hstep
    exact ⟨hother (by simp), h.accept hpos hfree ready garbage⟩
  | skip =>
    obtain ⟨ready, c, rest, -, hahead, -, rfl⟩ := hstep
    exact ⟨hother (by simp), h.pass hahead⟩
  | disconnect =>
    obtain ⟨ready, c, rest, -, hahead, -, rfl⟩ := hstep
    exact ⟨hother (by simp), h.destroy hahead⟩
  | finish =>
    obtain ⟨ready, -, hahead, rfl⟩ := hstep
    exact ⟨hother (by simp), h.of_nodes rfl rfl (by simp [Server.connList, hahead]) rfl⟩
  | request req =>
    obtain ⟨ready, c, rest, conn, ret, tbl, -, hahead, -, -, hserves, hf, rfl⟩ := hstep
    have hrequest := careful_request h hahead hcareful hserves hf
    refine ⟨?_, ?_⟩
    · intro req' c' ha hcurrent
      obtain rfl : req = req' := Action.request.inj ha
      obtain rfl : c = c' := by simpa [Server.current, hahead] using hcurrent
      exact ⟨tbl, hrequest.1⟩
    · split
      · exact hrequest.2.2.destroy rfl
      · exact hrequest.2.2.pass rfl

/-- As long as every session asks for its data connection only while it has one, all of them
keep to their own. -/
theorem sessions_isolated {listener : Int} (hlistener : 0 ≤ listener) {as : List Action}
    {s s' : Server} {a : Action} (h : Follows (Where Careful serverStep) (started listener) as s)
    (hcareful : Careful s a) (hstep : serverStep s a s') : Isolated s a := by
  have hsafe : Safe s := by
    apply Follows.invariant Safe _ h (safe_started hlistener)
    intro v l w hv hw
    exact (serverStep_isolated v l w hv hw.1 hw.2).2
  exact (serverStep_isolated s a s' hsafe hcareful hstep).1

theorem careful_of_not_request {s : Server} {a : Action} (h : ∀ req, a ≠ .request req) :
    Careful s a :=
  fun req _ ha => absurd ha (h req)

theorem careful_port {s : Server} {req : Request} (h : req.cmd = .port) :
    Careful s (.request req) := by
  intro req' c ha _ htouches
  obtain rfl : req = req' := Action.request.inj ha
  exact absurd h htouches.1

theorem careful_live {s : Server} {req : Request} {c : Session} (hcurrent : s.current = some c)
    (hlive : c.live = true) : Careful s (.request req) := by
  intro req' c' _ hcurrent' _
  obtain rfl : c = c' := Option.some.inj (hcurrent.symm.trans hcurrent')
  exact .inl hlive

def firstReady (fd : Int) : Bool := fd = 1

def portUnreachable : Request :=
  { portAnswered with
    calls := [⟨.malloc, true⟩, ⟨.socket, 2⟩, ⟨.bind 2 (htons ftpDataPort), 0⟩,
      ⟨.connect 2 0 (htons 1024), -1⟩, ⟨.connect 2 0 (htons 1024), -1⟩,
      ⟨.reply .sockfd 1 Reply.cannotOpen.text, 32⟩, ⟨.close .pasvSockfd 2, 0⟩] }

def listUnreadable : Request where
  received := bytes "LIST\r\n"
  stale := []
  calls := [⟨.malloc, true⟩, ⟨.reply .sockfd 1 Reply.openingList.text, 51⟩,
    ⟨.fOpendir (bytes "/"), FResult.diskErr⟩,
    ⟨.reply .pasvSockfd 2 Reply.listFailed.text, 27⟩, ⟨.close .pasvSockfd 2, 0⟩,
    ⟨.reply .sockfd 1 Reply.transferComplete.text, 24⟩]
  fits := by decide

def listed : Conn := { connected with pasvActive := 0 }

def refused : Conn := { justAccepted with pasvSockfd := 2 }

theorem serves_portUnreachable : Serves justAccepted portUnreachable refused 0 :=
  serves_of_replay 0 rfl

theorem follows_portUnreachable {tbl : Table} (h : tbl 2 = none) :
    Follows (socketStep 0 portUnreachable.cmd) tbl portUnreachable.calls
      (Table.close (Function.update tbl 2 (some (.data 0))) 2) :=
  ⟨_, rfl, _, .inr ⟨by decide, h, rfl⟩, _, rfl, _, rfl, _, rfl, _, rfl, _, rfl, rfl⟩

theorem follows_listUnreadable {id : Nat} (tbl : Table) :
    Follows (socketStep id listUnreadable.cmd) tbl listUnreadable.calls (tbl.close 2) :=
  ⟨_, rfl, _, rfl, _, rfl, _, rfl, _, rfl, _, rfl, rfl⟩

theorem follows_connected {cond : Server → Action → Prop}
    (hidle : ∀ s a, (∀ req, a ≠ .request req) → a ≠ .disconnect → cond s a)
    (hport : ∀ s c, s.current = some c → c.live = false → cond s (.request portAnswered)) :
    ∃ s, Follows (Where cond serverStep) (started 0)
      [.accept firstReady 1 justAccepted, .request portAnswered, .finish, .walk firstReady] s ∧
    s.phase = .walking firstReady ∧ s.ahead = [⟨0, connected, true⟩] ∧ s.walked = [] ∧
      s.sockets 2 = some (.data 0) := by
  refine ⟨_, ⟨_, ⟨hidle _ _ (by simp) (by simp), rfl, by decide, rfl, rfl⟩,
    _, ⟨hport _ _ rfl rfl, firstReady, _, _, connected, 0, _, rfl, rfl, rfl, by decide,
      serves_portAnswered, follows_portAnswered rfl, rfl⟩,
    _, ⟨hidle _ _ (by simp) (by simp), firstReady, rfl, rfl, rfl⟩,
    _, ⟨hidle _ _ (by simp) (by simp), rfl, rfl⟩, rfl⟩, rfl, rfl, rfl, rfl⟩

theorem step_listUnreadable {s : Server} (hphase : s.phase = .walking firstReady)
    (hahead : s.ahead = [⟨0, connected, true⟩]) :
    serverStep s (.request listUnreadable)
      ((s.served ⟨0, listed, false⟩ [] (s.sockets.close 2)).pass ⟨0, listed, false⟩ []) :=
  ⟨firstReady, _, [], listed, 0, _, hphase, hahead, by decide,
    by decide, serves_of_replay 0 rfl, follows_listUnreadable _, rfl⟩

theorem sessions_isolated_connected : ∃ s, s.current = some ⟨0, connected, true⟩ ∧
    Isolated s (.request listUnreadable) := by
  obtain ⟨s, hs, hphase, hahead, -⟩ := follows_connected
    (fun _ _ hrequest _ => careful_of_not_request hrequest) (fun _ _ _ _ => careful_port rfl)
  have hcurrent : s.current = some ⟨0, connected, true⟩ := by rw [Server.current, hahead]; rfl
  exact ⟨s, hcurrent, sessions_isolated (le_refl 0) hs (careful_live hcurrent rfl)
    (step_listUnreadable hphase hahead)⟩

theorem follows_bothConnected : ∃ s, Follows serverStep (started 0)
    [.accept firstReady 1 justAccepted, .request portUnreachable, .finish,
      .accept firstReady 2 justAccepted, .skip] s ∧
    s.phase = .walking firstReady ∧ s.ahead = [⟨0, refused, false⟩] ∧
      s.sockets 2 = some (.control 1) := by
  refine ⟨_, ⟨_, ⟨rfl, by decide, rfl, rfl⟩, _, ⟨firstReady, _, _, refused, 0, _, rfl, rfl, rfl,
    by decide, serves_portUnreachable, follows_portUnreachable rfl, rfl⟩,
    _, ⟨firstReady, rfl, rfl, rfl⟩, _, ⟨rfl, by decide, rfl, rfl⟩,
    _, ⟨firstReady, _, _, rfl, rfl, by decide, rfl⟩, rfl⟩, rfl, rfl, rfl⟩

/-- The listing of the first client goes to the second, who is then cut off. -/
theorem stranger_disconnected :
    ¬∀ listener as s a s', 0 ≤ listener → Follows serverStep (started listener) as s →
      serverStep s a s' → Isolated s a := by
  intro h
  obtain ⟨s, hs, hphase, hahead, hsecond⟩ := follows_bothConnected
  have hstep : serverStep s (.request listUnreadable) _ :=
    ⟨firstReady, _, [], refused, 0, _, hphase, hahead, by decide, by decide,
      serves_of_replay 0 rfl, follows_listUnreadable _, rfl⟩
  obtain ⟨tbl, v, hv, w, hw, x, hx, y, hy, -⟩ :=
    h 0 _ s _ _ (le_refl 0) hs hstep listUnreadable _ rfl (by rw [Server.current, hahead]; rfl)
  obtain rfl : v = s.sockets := hv.2
  obtain rfl : w = s.sockets := hw.2
  obtain rfl : x = s.sockets := hx.2
  rcases hy.1 2 rfl with hnone | hdata
  · rw [hsecond] at hnone
    cases hnone
  · rw [hsecond] at hdata
    cases hdata

end FtpServer
