import FtpServer.Sessions

/-! The descriptors of lwIP and who opened them. `socket` and `accept` return any free
descriptor; a closed one may be handed out again at once. -/

namespace FtpServer
open Interaction CString Transition

/-- The listening socket of the server, or what a session opened: its control connection, its
data connection, or the socket PASV listens on. -/
inductive Owner where
  | listener
  | control (id : Nat)
  | data (id : Nat)
  | passive (id : Nat)
  deriving DecidableEq, Repr

abbrev Table := Int → Option Owner

/-- `socket` and `accept`: -1, or a descriptor that was free. -/
def Table.Obtains (tbl : Table) (fd : Int) (owner : Owner) (tbl' : Table) : Prop :=
  (fd = -1 ∧ tbl' = tbl) ∨
  (0 ≤ fd ∧ tbl fd = none ∧ tbl' = Function.update tbl fd (some owner))

def Table.close (tbl : Table) (fd : Int) : Table := Function.update tbl fd none

theorem Table.close_self (tbl : Table) (fd : Int) : tbl.close fd fd = none :=
  Function.update_self ..

theorem Table.close_of_ne (tbl : Table) {fd fd' : Int} (h : fd' ≠ fd) :
    tbl.close fd fd' = tbl fd' :=
  Function.update_of_ne h ..

/-- What `socket` opens: PASV listens on it, PORT connects it. -/
def socketOwner (id : Nat) : Cmd → Owner
  | .pasv => .passive id
  | _ => .data id

def socketStep (id : Nat) (cmd : Cmd) (tbl : Table) : CallEvent → Table → Prop
  | ⟨.socket, fd⟩, tbl' => tbl.Obtains fd (socketOwner id cmd) tbl'
  | ⟨.accept _, answer⟩, tbl' => tbl.Obtains answer.sock (.data id) tbl'
  | ⟨.close _ fd, _⟩, tbl' => tbl' = tbl.close fd
  | _, tbl' => tbl' = tbl

@[simp] def onPasv : CallEvent → Option Int
  | ⟨.select .pasvSockfd fd, _⟩ | ⟨.recv .pasvSockfd fd _, _⟩ | ⟨.send .pasvSockfd fd _, _⟩
  | ⟨.reply .pasvSockfd fd _, _⟩ | ⟨.close .pasvSockfd fd, _⟩ => some fd
  | _ => none

@[simp] def opensSocket : CallEvent → Bool
  | ⟨.socket, _⟩ => true
  | _ => false

@[simp] def accepts : CallEvent → Bool
  | ⟨.accept _, _⟩ => true
  | _ => false

@[simp] def closesPasv : CallEvent → Bool
  | ⟨.close .pasvSockfd _, _⟩ => true
  | _ => false

@[simp] def closesSocket : CallEvent → Bool
  | ⟨.close _ _, _⟩ => true
  | _ => false

@[simp] def concernsData (e : CallEvent) : Bool :=
  (onPasv e).isSome || opensSocket e || accepts e || closesSocket e

theorem concernsData_eq_false {e : CallEvent} : concernsData e = false ↔
    onPasv e = none ∧ opensSocket e = false ∧ accepts e = false ∧ closesSocket e = false := by
  simp only [concernsData, Bool.or_eq_false_iff, Option.isSome_eq_false_iff,
    Option.isNone_iff_eq_none, and_assoc]

def socketCalls (t : List CallEvent) : List CallEvent :=
  t.filter concernsData

@[simp] theorem socketCalls_nil : socketCalls [] = [] := rfl

@[simp] theorem socketCalls_cons (e : CallEvent) (t : List CallEvent) :
    socketCalls (e :: t) =
      if concernsData e then e :: socketCalls t else socketCalls t := List.filter_cons

@[simp] theorem socketCalls_append (t t' : List CallEvent) :
    socketCalls (t ++ t') = socketCalls t ++ socketCalls t' := List.filter_append ..

/-- Calls on a descriptor that leave it open. -/
def Uses (fd : Int) (calls : List CallEvent) : Prop :=
  ∀ e ∈ calls, onPasv e = some fd ∧ closesPasv e = false

theorem uses_listTrace (line : FilInfo → Bytes) (sock : Int) (entries : List (FilInfo × Int))
    (last : FResult × FilInfo) :
    Uses sock (socketCalls (listTrace line .pasvSockfd sock entries last)) := by
  rw [Uses, socketCalls, List.forall_mem_filter, forall_mem_listTrace]
  simp

theorem uses_retrTrace (sock : Int) (blocks : List ReadBlock) (last : FResult) :
    Uses sock (socketCalls (retrTrace sock blocks last)) := by
  rw [Uses, socketCalls, List.forall_mem_filter, forall_mem_retrTrace]
  simp

theorem uses_storTrace (conn : Conn) (blocks : List WriteBlock) (last : StorEnd) :
    Uses conn.pasvSockfd (socketCalls (storTrace conn blocks last)) := by
  rw [Uses, socketCalls, List.forall_mem_filter, forall_mem_storTrace]
  cases last <;> simp [storTrace]

/-- The ways a request can treat the data connection, from the `pasv_sockfd` it
finds to the one it leaves. -/
inductive SocketUse (old : Int) : Cmd → List CallEvent → Int → Prop
  | quiet (cmd : Cmd) : SocketUse old cmd [] old
  | transferred (cmd : Cmd) (uses : List CallEvent) (k : Int) (hcmd : Transfers cmd)
    (huses : Uses old uses) :
    SocketUse old cmd (uses ++ [⟨.close .pasvSockfd old, k⟩]) old
  | portFailed (fd k : Int) : SocketUse old .port [⟨.socket, fd⟩, ⟨.close .pasvSockfd fd, k⟩] fd
  | portConnected (fd : Int) (hfd : fd ≠ -1) : SocketUse old .port [⟨.socket, fd⟩] fd
  | pasvUnanswered (fd k : Int) :
    SocketUse old .pasv [⟨.socket, fd⟩, ⟨.close .pasvSockfd old, k⟩] old
  | pasvNotAccepted (fd k : Int) (answer : AcceptResult) (hfd : fd ≠ -1) (hsock : answer.sock < 0) :
    SocketUse old .pasv [⟨.socket, fd⟩, ⟨.accept fd, answer⟩, ⟨.close .pasvSockfd answer.sock, k⟩]
      answer.sock
  | pasvUnbound (fd j k : Int) (answer : AcceptResult) (hfd : fd ≠ -1) (hsock : 0 ≤ answer.sock) :
    SocketUse old .pasv [⟨.socket, fd⟩, ⟨.accept fd, answer⟩, ⟨.close .localSockfd fd, j⟩,
      ⟨.close .pasvSockfd answer.sock, k⟩] answer.sock
  | pasvAccepted (fd j : Int) (answer : AcceptResult) (hfd : fd ≠ -1) (hsock : 0 ≤ answer.sock) :
    SocketUse old .pasv [⟨.socket, fd⟩, ⟨.accept fd, answer⟩, ⟨.close .localSockfd fd, j⟩]
      answer.sock

def HasSocketUse (old : Int) (cmd : Cmd) (t : List CallEvent)
    (r : Except Fault (Conn × Int)) : Prop :=
  ∀ conn' ret, r = .ok (conn', ret) → SocketUse old cmd (socketCalls t) conn'.pasvSockfd

@[simp] theorem hasSocketUse_error (old : Int) (cmd : Cmd) (t : List CallEvent) (e : Fault) :
    HasSocketUse old cmd t (.error e) := by
  intro conn' ret h
  cases h

@[simp] theorem hasSocketUse_ok (old : Int) (cmd : Cmd) (t : List CallEvent) (conn' : Conn)
    (ret : Int) : HasSocketUse old cmd t (.ok (conn', ret)) ↔
      SocketUse old cmd (socketCalls t) conn'.pasvSockfd := by
  simp [HasSocketUse]

section Commands
variable (fuel : Nat) (conn : Conn) (parameter : Option Bytes)

theorem cmdList_socketUse : Always (cmdList fuel conn) (HasSocketUse conn.pasvSockfd .list) := by
  simp [cmdList, doFullList]
  intro rc
  constructor
  · intro _ entries last fno _ _ _ k
    exact .transferred .list _ k trivial (uses_listTrace _ _ _ _)
  · intro _ sent k
    exact .transferred .list [⟨.reply .pasvSockfd conn.pasvSockfd Reply.listFailed.text, sent⟩] k
      trivial (by simp [Uses])

theorem cmdNlst_socketUse : Always (cmdNlst fuel conn) (HasSocketUse conn.pasvSockfd .nlst) := by
  simp [cmdNlst, doSimpleList]
  intro rc
  constructor
  · intro _ entries last fno _ _ _ k
    exact .transferred .nlst _ k trivial (uses_listTrace _ _ _ _)
  · intro _ sent k
    exact .transferred .nlst
      [⟨.reply .pasvSockfd conn.pasvSockfd Reply.simpleListFailed.text, sent⟩] k trivial
      (by simp [Uses])

theorem cmdRetr_socketUse (buf : Bytes) :
    Always (cmdRetr fuel conn buf parameter) (HasSocketUse conn.pasvSockfd .retr) := by
  cases parameter with
  | none => simp [cmdRetr]
  | some arg =>
    simp [cmdRetr, retrSeek]
    intro _ _
    refine ⟨fun size => ⟨fun _ => .quiet .retr, fun _ rc => ⟨?_, fun _ => .quiet .retr⟩⟩,
      fun _ _ => .quiet .retr⟩
    intro _ blocks last _ _ k
    exact .transferred .retr _ k trivial (uses_retrTrace _ _ _)

theorem cmdStor_socketUse :
    Always (cmdStor fuel conn parameter) (HasSocketUse conn.pasvSockfd .stor) := by
  cases parameter with
  | none => simp [cmdStor]
  | some arg =>
    simp [cmdStor]
    intro _ rc
    refine ⟨?_, fun _ => .quiet .stor⟩
    intro _ blocks last _ _ _ k
    exact .transferred .stor _ k trivial (uses_storTrace _ _ _)

theorem portConnect_socketUse (addr : UInt32) (port : UInt16) :
    Always (portConnect conn addr port) (HasSocketUse conn.pasvSockfd .port) := by
  simp [portConnect, portConnected]
  intro fd
  constructor
  · intro _ k
    exact .portFailed fd k
  · intro hfd first
    refine ⟨fun _ second => ⟨fun _ k => .portFailed fd k, fun _ => .portConnected fd hfd⟩, ?_⟩
    exact fun _ => .portConnected fd hfd

theorem pasvListen_socketUse {fd : Int} (hfd : fd ≠ -1) (ret : Int) :
    Always (pasvListen conn fd ret)
      (fun t r => HasSocketUse conn.pasvSockfd .pasv (⟨.socket, fd⟩ :: t) r) := by
  simp [pasvListen, pasvAccept, pasvEnd]
  intro listening
  refine ⟨fun _ k => .pasvUnanswered fd k, fun _ ready => ⟨fun _ answer => ⟨?_, ?_⟩, ?_⟩⟩
  · intro hsock k
    exact .pasvNotAccepted fd k answer hfd hsock
  · intro hsock j
    exact ⟨fun _ => .pasvAccepted fd j answer hfd hsock,
      fun _ k => .pasvUnbound fd j k answer hfd hsock⟩
  · exact fun _ k => .pasvUnanswered fd k

theorem cmdPasv_socketUse : Always (cmdPasv conn) (HasSocketUse conn.pasvSockfd .pasv) := by
  simp only [cmdPasv, pasvSocket, pasvBind, always_bind, always_call, then_ok, always_ite]
  intro fd
  constructor
  · intro _
    simpa [pasvEnd] using fun k => SocketUse.pasvUnanswered fd k
  · intro hfd bound
    have hlisten := fun ret => pasvListen_socketUse
      { conn with pasvPort := ftpPassvPort, pasvActive := 1 } hfd ret
    constructor
    · intro _
      rw [always_doSendReply (Reply.text_ne_nil _)]
      intro sent
      refine (hlisten 3).mono ?_
      intro t r huse
      simpa [HasSocketUse] using huse
    · intro _
      refine (hlisten 0).mono ?_
      intro t r huse
      simpa [HasSocketUse] using huse

theorem cmdPort_socketUse :
    Always (cmdPort conn parameter) (HasSocketUse conn.pasvSockfd .port) := by
  refine always_cmdPort conn parameter ?_ ?_ ?_
  · simp [HasSocketUse]
  · exact hasSocketUse_error conn.pasvSockfd .port _ _
  · exact portConnect_socketUse conn

end Commands

theorem dispatch_socketUse (fuel : Nat) (conn : Conn) (buf : Bytes) (cmd : Cmd)
    (parameter : Option Bytes) :
    Always (dispatch fuel conn buf cmd parameter) (HasSocketUse conn.pasvSockfd cmd) := by
  have hquiet : ∀ cmd, SocketUse conn.pasvSockfd cmd [] conn.pasvSockfd := .quiet
  cases cmd with
  | list => exact cmdList_socketUse fuel conn
  | nlst => exact cmdNlst_socketUse fuel conn
  | retr => exact cmdRetr_socketUse fuel conn parameter buf
  | stor => exact cmdStor_socketUse fuel conn parameter
  | port => exact cmdPort_socketUse conn parameter
  | pasv => exact cmdPasv_socketUse conn
  | user => cases parameter <;> simp [dispatch, cmdUser, hquiet]
  | type => cases parameter <;> simp [dispatch, cmdType, hquiet]
  | rest => cases parameter <;> simp [dispatch, cmdRest, hquiet]
  | cwd => cases parameter <;> simp [dispatch, cmdCwd, hquiet]
  | size => cases parameter <;> simp [dispatch, cmdSize, hquiet]
  | mkd => cases parameter <;> simp [dispatch, cmdMkd, cmdOnPath, hquiet]
  | dele => cases parameter <;> simp [dispatch, cmdDele, cmdOnPath, hquiet]
  | rmd => cases parameter <;> simp [dispatch, cmdRmd, cmdOnPath, hquiet]
  | pass => simp [dispatch, cmdPass, hquiet]
  | pwd => simp [dispatch, cmdPwd, hquiet]
  | mdtm => simp [dispatch, cmdMdtm, hquiet]
  | syst => simp [dispatch, cmdSyst, hquiet]
  | cdup => simp [dispatch, cmdCdup, hquiet]
  | feat => simp [dispatch, cmdFeat, hquiet]
  | quit => simp [dispatch, cmdQuit, hquiet]
  | uknwn => simp [dispatch, cmdUnknown, hquiet]

theorem serves_socketUse {conn conn' : Conn} {req : Request} {ret : Int}
    (h : Serves conn req conn' ret) :
    SocketUse conn.pasvSockfd req.cmd (socketCalls req.calls) conn'.pasvSockfd := by
  cases serves_cases h with
  | inl hfailed =>
    obtain ⟨hcalls, rfl, -⟩ := hfailed
    simpa [hcalls] using SocketUse.quiet req.cmd
  | inr hdone =>
    obtain ⟨fuel, t, hcalls, hrun⟩ := hdone
    have huse := dispatch_socketUse fuel conn _ req.cmd req.parameter t _ hrun conn' ret rfl
    simpa [hcalls] using huse

def Owner.Mine (id : Nat) (owner : Owner) : Prop := owner = .data id ∨ owner = .passive id

/-- A call through `conn->pasv_sockfd` acts on the session's data socket, or on nothing. -/
def OnData (id : Nat) (tbl : Table) (e : CallEvent) : Prop :=
  ∀ fd, onPasv e = some fd → tbl fd = none ∨ tbl fd = some (.data id)

/-- Besides, what is closed is the session's own. -/
def Proper (id : Nat) (tbl : Table) (e : CallEvent) : Prop :=
  OnData id tbl e ∧ ∀ via fd k, e = ⟨.close via fd, k⟩ →
    tbl fd = none ∨ ∃ owner, owner.Mine id ∧ tbl fd = some owner

def KeepsOthers (id : Nat) (tbl tbl' : Table) : Prop :=
  ∀ fd owner, ¬owner.Mine id → (tbl' fd = some owner ↔ tbl fd = some owner)

def Table.Sane (tbl : Table) : Prop := ∀ fd < 0, tbl fd = none

theorem Table.Sane.close {tbl : Table} (h : tbl.Sane) (fd : Int) : (tbl.close fd).Sane := by
  intro fd' hneg
  by_cases hfd : fd' = fd
  · rw [hfd, Table.close_self]
  · rw [Table.close_of_ne _ hfd, h fd' hneg]

theorem Table.Sane.obtains {tbl tbl' : Table} {fd : Int} {owner : Owner} (h : tbl.Sane)
    (hobtains : tbl.Obtains fd owner tbl') : tbl'.Sane := by
  rcases hobtains with ⟨-, rfl⟩ | ⟨hpos, -, rfl⟩
  · exact h
  · intro fd' hneg
    rw [Function.update_of_ne (by omega), h fd' hneg]

theorem keepsOthers_close {id : Nat} {tbl : Table} {fd : Int}
    (h : tbl fd = none ∨ ∃ owner, owner.Mine id ∧ tbl fd = some owner) :
    KeepsOthers id tbl (tbl.close fd) := by
  intro fd' other hother
  by_cases hfd : fd' = fd
  · subst hfd
    rw [Table.close_self]
    rcases h with hnone | ⟨owner, hmine, hsome⟩
    · simp [hnone]
    · simp only [hsome, reduceCtorEq, Option.some.injEq, false_iff]
      rintro rfl
      exact hother hmine
  · rw [Table.close_of_ne _ hfd]

theorem keepsOthers_obtains {id : Nat} {tbl tbl' : Table} {fd : Int} {owner : Owner}
    (hmine : owner.Mine id) (h : tbl.Obtains fd owner tbl') : KeepsOthers id tbl tbl' := by
  rcases h with ⟨-, rfl⟩ | ⟨-, hfree, rfl⟩
  · exact fun _ _ _ => Iff.rfl
  · intro fd' other hother
    by_cases hfd : fd' = fd
    · subst hfd
      rw [Function.update_self, hfree]
      simp only [Option.some.injEq, reduceCtorEq, iff_false]
      rintro rfl
      exact hother hmine
    · rw [Function.update_of_ne hfd]

theorem socketOwner_mine (id : Nat) (cmd : Cmd) : (socketOwner id cmd).Mine id := by
  cases cmd <;> simp [socketOwner, Owner.Mine]

theorem socketStep_keeps {id : Nat} {cmd : Cmd} {tbl tbl' : Table} {e : CallEvent}
    (hproper : Proper id tbl e) (h : socketStep id cmd tbl e tbl') (hsane : tbl.Sane) :
    KeepsOthers id tbl tbl' ∧ tbl'.Sane := by
  unfold socketStep at h
  split at h
  · exact ⟨keepsOthers_obtains (socketOwner_mine id cmd) h, hsane.obtains h⟩
  · exact ⟨keepsOthers_obtains (.inl rfl) h, hsane.obtains h⟩
  · subst h
    exact ⟨keepsOthers_close (hproper.2 _ _ _ rfl), hsane.close _⟩
  · subst h
    exact ⟨fun _ _ _ => Iff.rfl, hsane⟩

theorem socketCalls_keep {id : Nat} {cmd : Cmd} {tbl tbl' : Table} {calls : List CallEvent}
    (h : Follows (Where (Proper id) (socketStep id cmd)) tbl calls tbl') (hsane : tbl.Sane) :
    KeepsOthers id tbl tbl' ∧ tbl'.Sane := by
  apply Follows.invariant (fun tbl' => KeepsOthers id tbl tbl' ∧ tbl'.Sane) _ h
  · exact ⟨fun _ _ _ => Iff.rfl, hsane⟩
  · intro v e w hv hstep
    have hkeeps := socketStep_keeps hstep.1 hstep.2 hv.2
    refine ⟨?_, hkeeps.2⟩
    intro fd owner hother
    rw [hkeeps.1 fd owner hother, hv.1 fd owner hother]

/-- The request uses the descriptor that it finds in `pasv_sockfd`. -/
def TouchesOld (cmd : Cmd) (t : List CallEvent) : Prop :=
  cmd ≠ .port ∧ (∀ e ∈ t, accepts e = false) ∧ ∃ e ∈ t, (onPasv e).isSome

/-- Whether the session has a data connection, as its requests go: PORT and PASV give it one
and its close takes it away. -/
def liveAfter (t : List CallEvent) (live : Bool) : Bool :=
  !t.any closesPasv && (t.any opensSocket || live)

theorem any_socketCalls {p : CallEvent → Bool} (hp : ∀ e, concernsData e = false → p e = false)
    (t : List CallEvent) : (socketCalls t).any p = t.any p := by
  induction t with
  | nil => rfl
  | cons e t ih =>
    rw [socketCalls_cons, List.any_cons, ← ih]
    cases hconcerns : concernsData e with
    | true => rfl
    | false => simp [hp e hconcerns]

theorem closesPasv_le {e : CallEvent} (h : closesSocket e = false) : closesPasv e = false := by
  unfold closesPasv
  split
  · simp at h
  · rfl

theorem liveAfter_socketCalls (t : List CallEvent) (live : Bool) :
    liveAfter (socketCalls t) live = liveAfter t live := by
  unfold liveAfter
  rw [any_socketCalls (fun e he => closesPasv_le (concernsData_eq_false.mp he).2.2.2),
    any_socketCalls (fun e he => (concernsData_eq_false.mp he).2.1)]

theorem socketStep_uses {id : Nat} {cmd : Cmd} {tbl tbl' : Table} {e : CallEvent} {fd : Int}
    (hfd : onPasv e = some fd) (hclose : closesPasv e = false) :
    socketStep id cmd tbl e tbl' ↔ tbl' = tbl := by
  unfold socketStep
  split
  · simp at hfd
  · simp at hfd
  · rename_i via _ _
    cases via <;> simp at hfd hclose
  · exact Iff.rfl

theorem Uses.table {id : Nat} {cmd : Cmd} {tbl tbl' : Table} {fd : Int} {uses : List CallEvent}
    (huses : Uses fd uses) (h : Follows (socketStep id cmd) tbl uses tbl') : tbl' = tbl := by
  induction uses generalizing tbl with
  | nil => exact h
  | cons e uses ih =>
    obtain ⟨v, hv, hf⟩ := h
    have he := huses e (by simp)
    obtain rfl := (socketStep_uses he.1 he.2).mp hv
    exact ih (fun e he => huses e (by simp [he])) hf

theorem Uses.proper {id : Nat} {cmd : Cmd} {tbl : Table} {fd : Int} {uses : List CallEvent}
    (huses : Uses fd uses) (hfd : tbl fd = none ∨ tbl fd = some (.data id)) :
    Follows (Where (Proper id) (socketStep id cmd)) tbl uses tbl := by
  induction uses with
  | nil => rfl
  | cons e uses ih =>
    have he := huses e (by simp)
    refine ⟨tbl, ⟨⟨?_, ?_⟩, (socketStep_uses he.1 he.2).mpr rfl⟩,
      ih (fun e he => huses e (by simp [he]))⟩
    · intro fd' hfd'
      obtain rfl : fd = fd' := Option.some.inj (he.1.symm.trans hfd')
      exact hfd
    · rintro via fd' k rfl
      cases via <;> simp at he

theorem onData_proper {id : Nat} {tbl : Table} {fd k : Int}
    (h : tbl fd = none ∨ tbl fd = some (.data id)) :
    Proper id tbl ⟨.close .pasvSockfd fd, k⟩ := by
  constructor
  · intro fd' hfd'
    obtain rfl : fd = fd' := by simpa using hfd'
    exact h
  · rintro via fd' k' heq
    obtain ⟨⟨-, rfl⟩, -⟩ : (Operand.pasvSockfd = via ∧ fd = fd') ∧ HEq k k' := by simpa using heq
    rcases h with hnone | hdata
    · exact .inl hnone
    · exact .inr ⟨_, .inl rfl, hdata⟩

theorem passive_proper {id : Nat} {tbl : Table} {fd k : Int} (h : tbl fd = some (.passive id)) :
    Proper id tbl ⟨.close .localSockfd fd, k⟩ := by
  constructor
  · intro fd' hfd'
    simp at hfd'
  · rintro via fd' k' heq
    obtain ⟨⟨-, rfl⟩, -⟩ : (Operand.localSockfd = via ∧ fd = fd') ∧ HEq k k' := by
      simpa using heq
    exact .inr ⟨_, .inr rfl, h⟩

theorem proper_of_opens {id : Nat} {tbl : Table} {e : CallEvent} (hpasv : onPasv e = none)
    (hclose : closesSocket e = false) : Proper id tbl e := by
  constructor
  · intro fd hfd
    rw [hpasv] at hfd
    cases hfd
  · rintro via fd k rfl
    simp at hclose

theorem accepted_table {id : Nat} {tbl v w : Table} {fd : Int} {answer : AcceptResult}
    (hfd : fd ≠ -1) (hsock : 0 ≤ answer.sock) (hopen : socketStep id .pasv tbl ⟨.socket, fd⟩ v)
    (haccept : socketStep id .pasv v ⟨.accept fd, answer⟩ w) :
    w fd = some (.passive id) ∧ tbl answer.sock = none ∧
      w.close fd = Function.update tbl answer.sock (some (.data id)) := by
  rcases hopen with ⟨hnone, -⟩ | ⟨-, hfree, rfl⟩
  · exact absurd hnone hfd
  rcases haccept with ⟨hnone, -⟩ | ⟨-, hfree', rfl⟩
  · omega
  have hne : answer.sock ≠ fd := by
    intro hsame
    rw [hsame, Function.update_self] at hfree'
    cases hfree'
  refine ⟨?_, ?_, ?_⟩
  · rw [Function.update_of_ne hne.symm, Function.update_self]
    rfl
  · rwa [Function.update_of_ne hne] at hfree'
  · funext fd'
    by_cases hfd' : fd' = fd
    · subst hfd'
      rw [Table.close_self, Function.update_of_ne hne.symm, hfree]
    · rw [Table.close_of_ne _ hfd']
      by_cases hsame : fd' = answer.sock
      · rw [hsame, Function.update_self, Function.update_self]
      · rw [Function.update_of_ne hsame, Function.update_of_ne hsame, Function.update_of_ne hfd']

theorem touchesOld_transferred {cmd : Cmd} {old k : Int} {uses : List CallEvent}
    (hcmd : Transfers cmd) (huses : Uses old uses) :
    TouchesOld cmd (uses ++ [⟨.close .pasvSockfd old, k⟩]) := by
  refine ⟨?_, ?_, ⟨.close .pasvSockfd old, k⟩, by simp, rfl⟩
  · rintro rfl
    exact hcmd
  · intro e he
    rcases List.mem_append.mp he with hmem | hmem
    · have hfd := (huses e hmem).1
      cases e with
      | mk q a => cases q <;> simp_all
    · obtain rfl : e = ⟨.close .pasvSockfd old, k⟩ := by simpa using hmem
      rfl

theorem SocketUse.proper {id : Nat} {cmd : Cmd} {tbl tbl' : Table} {old new : Int}
    {calls : List CallEvent} (huse : SocketUse old cmd calls new) (hsane : tbl.Sane)
    (hold : TouchesOld cmd calls → tbl old = some (.data id) ∨
      tbl old = none ∧ (old < 0 ∨ ⟨.socket, old⟩ ∉ calls))
    (h : Follows (socketStep id cmd) tbl calls tbl') :
    Follows (Where (Proper id) (socketStep id cmd)) tbl calls tbl' := by
  have howned : TouchesOld cmd calls → tbl old = none ∨ tbl old = some (.data id) :=
    fun htouches => (hold htouches).elim .inr fun hnone => .inl hnone.1
  cases huse with
  | quiet => exact h
  | transferred cmd uses k hcmd huses =>
    have hown := howned (touchesOld_transferred hcmd huses)
    obtain ⟨v, hf, w, hclose, rfl⟩ := (follows_append _ _ _ _).mp h
    obtain rfl := huses.table hf
    exact (follows_append _ _ _ _).mpr
      ⟨v, huses.proper hown, tbl', ⟨onData_proper hown, hclose⟩, rfl⟩
  | portFailed fd k =>
    obtain ⟨v, hopen, w, hclose, rfl⟩ := h
    refine ⟨v, ⟨proper_of_opens rfl rfl, hopen⟩, tbl', ⟨onData_proper ?_, hclose⟩, rfl⟩
    rcases hopen with ⟨rfl, rfl⟩ | ⟨-, -, rfl⟩
    · exact .inl (hsane _ (by decide))
    · exact .inr (Function.update_self ..)
  | portConnected fd hfd =>
    obtain ⟨v, hopen, rfl⟩ := h
    exact ⟨tbl', ⟨proper_of_opens rfl rfl, hopen⟩, rfl⟩
  | pasvUnanswered fd k =>
    have htouches : TouchesOld .pasv [⟨.socket, fd⟩, ⟨.close .pasvSockfd old, k⟩] := by
      simp [TouchesOld]
    obtain ⟨v, hopen, w, hclose, rfl⟩ := h
    refine ⟨v, ⟨proper_of_opens rfl rfl, hopen⟩, tbl', ⟨onData_proper ?_, hclose⟩, rfl⟩
    rcases hopen with ⟨rfl, rfl⟩ | ⟨hpos, hfree, rfl⟩
    · exact howned htouches
    · have hother : old ≠ fd := by
        rintro rfl
        rcases hold htouches with hdata | ⟨-, hneg | hnot⟩
        · rw [hfree] at hdata
          cases hdata
        · omega
        · simp at hnot
      rw [Function.update_of_ne hother]
      exact howned htouches
  | pasvNotAccepted fd k answer hfd hsock =>
    obtain ⟨v, hopen, w, haccept, x, hclose, rfl⟩ := h
    refine ⟨v, ⟨proper_of_opens rfl rfl, hopen⟩, w, ⟨proper_of_opens rfl rfl, haccept⟩, tbl',
      ⟨onData_proper (.inl ?_), hclose⟩, rfl⟩
    rcases haccept with ⟨-, rfl⟩ | ⟨hpos, -⟩
    · exact (hsane.obtains hopen) _ hsock
    · omega
  | pasvUnbound fd j k answer hfd hsock =>
    obtain ⟨v, hopen, w, haccept, x, hclose, y, hclose', rfl⟩ := h
    obtain ⟨hpassive, -, htable⟩ := accepted_table hfd hsock hopen haccept
    refine ⟨v, ⟨proper_of_opens rfl rfl, hopen⟩, w, ⟨proper_of_opens rfl rfl, haccept⟩, x,
      ⟨passive_proper hpassive, hclose⟩, tbl', ⟨onData_proper (.inr ?_), hclose'⟩, rfl⟩
    obtain rfl : x = w.close fd := hclose
    rw [htable, Function.update_self]
  | pasvAccepted fd j answer hfd hsock =>
    obtain ⟨v, hopen, w, haccept, x, hclose, rfl⟩ := h
    obtain ⟨hpassive, -⟩ := accepted_table hfd hsock hopen haccept
    exact ⟨v, ⟨proper_of_opens rfl rfl, hopen⟩, w, ⟨proper_of_opens rfl rfl, haccept⟩, tbl',
      ⟨passive_proper hpassive, hclose⟩, rfl⟩

theorem SocketUse.live {id : Nat} {cmd : Cmd} {tbl tbl' : Table} {old new : Int} {live : Bool}
    {calls : List CallEvent} (huse : SocketUse old cmd calls new)
    (hlive : live = true → tbl old = some (.data id))
    (h : Follows (socketStep id cmd) tbl calls tbl') (hafter : liveAfter calls live = true) :
    tbl' new = some (.data id) := by
  cases huse with
  | quiet =>
    cases h
    exact hlive (by simpa [liveAfter] using hafter)
  | portConnected fd hfd =>
    obtain ⟨v, hopen, rfl⟩ := h
    rcases hopen with ⟨hnone, -⟩ | ⟨-, -, rfl⟩
    · exact absurd hnone hfd
    · rw [Function.update_self]
      rfl
  | pasvAccepted fd j answer hfd hsock =>
    obtain ⟨v, hopen, w, haccept, x, hclose, rfl⟩ := h
    obtain ⟨-, -, htable⟩ := accepted_table hfd hsock hopen haccept
    obtain rfl : tbl' = w.close fd := hclose
    rw [htable, Function.update_self]
  | transferred | portFailed | pasvUnanswered | pasvNotAccepted | pasvUnbound =>
    simp [liveAfter] at hafter

@[simp] def RecvFails (e : CallEvent) : Prop :=
  match e with
  | ⟨.recv _ _ _, data⟩ => data = none
  | _ => False

/-- The requests that end their session: no memory for the buffer, QUIT, or a STOR whose data
connection fails. -/
def Ends (cmd : Cmd) (t : List CallEvent) : Prop :=
  t = [⟨.malloc, false⟩] ∨ cmd = .quit ∨ Occurs RecvFails t

section Loops

@[simp] theorem recvFails_listTrace (line : FilInfo → Bytes) (via : Operand) (sock : Int)
    (entries : List (FilInfo × Int)) (last : FResult × FilInfo) :
    ¬Occurs RecvFails (listTrace line via sock entries last) := by
  rw [not_occurs, forall_mem_listTrace]
  simp

@[simp] theorem recvFails_retrTrace (sock : Int) (blocks : List ReadBlock) (last : FResult) :
    ¬Occurs RecvFails (retrTrace sock blocks last) := by
  rw [not_occurs, forall_mem_retrTrace]
  simp

@[simp] theorem recvFails_storTrace (conn : Conn) (blocks : List WriteBlock) (last : StorEnd) :
    Occurs RecvFails (storTrace conn blocks last) ↔ last.ret = -1 := by
  rw [← not_iff_not, not_occurs, forall_mem_storTrace]
  cases last <;> simp [storTrace, StorEnd.ret]

end Loops

def EndsRight (cmd : Cmd) (t : List CallEvent) (r : Except Fault (Conn × Int)) : Prop :=
  ∀ conn' ret, r = .ok (conn', ret) →
    (ret = -1 ↔ cmd = .quit ∨ Occurs RecvFails t) ∧
      (Occurs RecvFails t → t.any closesPasv = true)

@[simp] theorem endsRight_error (cmd : Cmd) (t : List CallEvent) (e : Fault) :
    EndsRight cmd t (.error e) := by
  intro conn' ret h
  cases h

@[simp] theorem endsRight_ok (cmd : Cmd) (t : List CallEvent) (conn' : Conn) (ret : Int) :
    EndsRight cmd t (.ok (conn', ret)) ↔
      (ret = -1 ↔ cmd = .quit ∨ Occurs RecvFails t) ∧
        (Occurs RecvFails t → t.any closesPasv = true) := by
  simp [EndsRight]

theorem dispatch_ends (fuel : Nat) (conn : Conn) (buf : Bytes) (cmd : Cmd)
    (parameter : Option Bytes) :
    Always (dispatch fuel conn buf cmd parameter) (EndsRight cmd) := by
  cases cmd with
  | port =>
    refine always_cmdPort conn parameter ?_ ?_ ?_
    · simp [EndsRight]
    · exact endsRight_error .port _ _
    · simp [portConnect, portConnected]
  | user => cases parameter <;> simp [dispatch, cmdUser]
  | type => cases parameter <;> simp [dispatch, cmdType]
  | rest => cases parameter <;> simp [dispatch, cmdRest]
  | cwd => cases parameter <;> simp [dispatch, cmdCwd]
  | retr => cases parameter <;> simp [dispatch, cmdRetr, retrSeek]
  | stor => cases parameter <;> simp [dispatch, cmdStor]
  | size => cases parameter <;> simp [dispatch, cmdSize]
  | mkd => cases parameter <;> simp [dispatch, cmdMkd, cmdOnPath]
  | dele => cases parameter <;> simp [dispatch, cmdDele, cmdOnPath]
  | rmd => cases parameter <;> simp [dispatch, cmdRmd, cmdOnPath]
  | list => simp [dispatch, cmdList, doFullList]
  | nlst => simp [dispatch, cmdNlst, doSimpleList]
  | pasv => simp [dispatch, cmdPasv, pasvSocket, pasvBind, pasvListen, pasvAccept, pasvEnd]
  | pass => simp [dispatch, cmdPass]
  | pwd => simp [dispatch, cmdPwd]
  | mdtm => simp [dispatch, cmdMdtm]
  | syst => simp [dispatch, cmdSyst]
  | cdup => simp [dispatch, cmdCdup]
  | feat => simp [dispatch, cmdFeat]
  | quit => simp [dispatch, cmdQuit]
  | uknwn => simp [dispatch, cmdUnknown]

theorem serves_ends_iff {conn conn' : Conn} {req : Request} {ret : Int}
    (h : Serves conn req conn' ret) : ret = -1 ↔ Ends req.cmd req.calls := by
  rcases serves_cases h with ⟨hcalls, -, hret⟩ | ⟨fuel, t, hcalls, hrun⟩
  · simp [Ends, hcalls, hret]
  · obtain ⟨hends, -⟩ := dispatch_ends fuel conn _ req.cmd req.parameter t _ hrun conn' ret rfl
    rw [hends, Ends, hcalls]
    simp

def portAnswered : Request where
  received := bytes "PORT 0,0,0,0,4,0\r\n"
  stale := []
  calls := [⟨.malloc, true⟩, ⟨.socket, 2⟩, ⟨.bind 2 (htons ftpDataPort), 0⟩,
    ⟨.connect 2 0 (htons 1024), 0⟩, ⟨.reply .sockfd 1 Reply.portSuccessful.text, 28⟩]
  fits := by decide

def connected : Conn := { justAccepted with pasvSockfd := 2, pasvActive := 1, pasvPort := 1024 }

theorem serves_portAnswered : Serves justAccepted portAnswered connected 0 :=
  serves_of_replay 0 rfl

theorem follows_portAnswered {tbl : Table} (h : tbl 2 = none) :
    Follows (socketStep 0 portAnswered.cmd) tbl portAnswered.calls
      (Function.update tbl 2 (some (.data 0))) :=
  ⟨_, rfl, _, .inr ⟨by decide, h, rfl⟩, _, rfl, _, rfl, _, rfl, rfl⟩

end FtpServer
