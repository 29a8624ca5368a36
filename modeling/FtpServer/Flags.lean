import FtpServer.Sockets

/-! The flag of the data connection: `pasv_active` beside the descriptor in `pasv_sockfd`. -/

namespace FtpServer
open Interaction CString Transition

abbrev Held := Int → Bool

/-- PORT opens the socket it connects, PASV the one it accepts; what PASV listens on is no
data socket. -/
def heldAfter (cmd : Cmd) (held : Held) : CallEvent → Held
  | ⟨.socket, fd⟩ => if cmd = .port ∧ fd ≠ -1 then Function.update held fd true else held
  | ⟨.accept _, answer⟩ => if 0 ≤ answer.sock then Function.update held answer.sock true else held
  | ⟨.close _ fd, _⟩ => Function.update held fd false
  | _ => held

def heldBy (cmd : Cmd) (held : Held) (t : List CallEvent) : Held := t.foldl (heldAfter cmd) held

/-- lwIP gives an accepted connection another descriptor than that it listens on. -/
def AcceptsAnother : CallEvent → Prop
  | ⟨.accept fd, answer⟩ => answer.sock ≠ fd
  | _ => True

/-- `pasv_active` is set exactly when `pasv_sockfd` is a data socket of the session. -/
def FlagRight (conn : Conn) (held : Held) : Prop :=
  conn.pasvActive ≠ 0 ↔ held conn.pasvSockfd = true

theorem heldAfter_other {cmd : Cmd} {held : Held} {e : CallEvent} (h : concernsData e = false) :
    heldAfter cmd held e = held := by
  obtain ⟨-, hopens, haccepts, hcloses⟩ := concernsData_eq_false.mp h
  unfold heldAfter
  split
  · simp at hopens
  · simp at haccepts
  · simp at hcloses
  · rfl

theorem heldBy_socketCalls (cmd : Cmd) (held : Held) (t : List CallEvent) :
    heldBy cmd held (socketCalls t) = heldBy cmd held t := by
  unfold heldBy
  induction t generalizing held with
  | nil => rfl
  | cons e t ih =>
    rw [socketCalls_cons, List.foldl_cons]
    cases hconcerns : concernsData e with
    | true => exact ih _
    | false => simpa [heldAfter_other hconcerns] using ih held

theorem SocketUse.held {cmd : Cmd} {old new : Int} {calls : List CallEvent}
    (huse : SocketUse old cmd calls new) (held : Held) (hlwip : ∀ e ∈ calls, AcceptsAnother e) :
    heldBy cmd held calls new = liveAfter calls (held old) := by
  cases huse with
  | quiet => simp [heldBy, liveAfter]
  | transferred cmd uses k hcmd huses => simp [heldBy, heldAfter, liveAfter]
  | portFailed fd k => simp [heldBy, heldAfter, liveAfter]
  | portConnected fd hfd => simp [heldBy, heldAfter, liveAfter, hfd]
  | pasvUnanswered fd k => simp [heldBy, heldAfter, liveAfter]
  | pasvNotAccepted fd k answer hfd hsock => simp [heldBy, heldAfter, liveAfter]
  | pasvUnbound fd j k answer hfd hsock => simp [heldBy, heldAfter, liveAfter]
  | pasvAccepted fd j answer hfd hsock =>
    have hother : answer.sock ≠ fd := hlwip ⟨.accept fd, answer⟩ (by simp)
    simp [heldBy, heldAfter, liveAfter, hsock, hother]

@[simp] def noSocket : CallEvent → Bool
  | ⟨.socket, fd⟩ => fd = -1
  | _ => false

/-- The branches that close `pasv_sockfd` and leave the flag: the end of a transfer, and a
PORT whose socket nobody answers at. -/
def LeavesFlag (cmd : Cmd) (t : List CallEvent) : Prop :=
  cmd = .retr ∨ cmd = .stor ∨ cmd = .port ∧ t.any noSocket = false

instance (cmd : Cmd) (t : List CallEvent) : Decidable (LeavesFlag cmd t) :=
  inferInstanceAs (Decidable (_ ∨ _))

def activeAfter (active : UInt8) (cmd : Cmd) (t : List CallEvent) : UInt8 :=
  if t.any closesPasv then (if LeavesFlag cmd t then active else 0)
  else if t.any opensSocket then 1
  else active

def HasActive (conn : Conn) (cmd : Cmd) (t : List CallEvent) (r : Except Fault (Conn × Int)) :
    Prop :=
  ∀ conn' ret, r = .ok (conn', ret) → conn'.pasvActive = activeAfter conn.pasvActive cmd t

@[simp] theorem hasActive_error (conn : Conn) (cmd : Cmd) (t : List CallEvent) (e : Fault) :
    HasActive conn cmd t (.error e) := by
  intro conn' ret h
  cases h

@[simp] theorem hasActive_ok (conn : Conn) (cmd : Cmd) (t : List CallEvent) (conn' : Conn)
    (ret : Int) : HasActive conn cmd t (.ok (conn', ret)) ↔
      conn'.pasvActive = activeAfter conn.pasvActive cmd t := by
  simp [HasActive]

theorem dispatch_active (fuel : Nat) (conn : Conn) (buf : Bytes) (cmd : Cmd)
    (parameter : Option Bytes) :
    Always (dispatch fuel conn buf cmd parameter) (HasActive conn cmd) := by
  cases cmd with
  | port =>
    refine always_cmdPort conn parameter ?_ ?_ ?_
    · simp [HasActive, activeAfter, LeavesFlag]
    · exact hasActive_error conn .port _ _
    · simp +contextual [portConnect, portConnected, activeAfter, LeavesFlag]
  | user => cases parameter <;> simp [dispatch, cmdUser, activeAfter]
  | type => cases parameter <;> simp [dispatch, cmdType, activeAfter]
  | rest => cases parameter <;> simp [dispatch, cmdRest, activeAfter]
  | cwd => cases parameter <;> simp [dispatch, cmdCwd, activeAfter]
  | retr => cases parameter <;> simp [dispatch, cmdRetr, retrSeek, activeAfter, LeavesFlag]
  | stor => cases parameter <;> simp [dispatch, cmdStor, activeAfter, LeavesFlag]
  | size => cases parameter <;> simp [dispatch, cmdSize, activeAfter]
  | mkd => cases parameter <;> simp [dispatch, cmdMkd, cmdOnPath, activeAfter]
  | dele => cases parameter <;> simp [dispatch, cmdDele, cmdOnPath, activeAfter]
  | rmd => cases parameter <;> simp [dispatch, cmdRmd, cmdOnPath, activeAfter]
  | list => simp [dispatch, cmdList, doFullList, activeAfter, LeavesFlag]
  | nlst => simp [dispatch, cmdNlst, doSimpleList, activeAfter, LeavesFlag]
  | pasv =>
    simp [dispatch, cmdPasv, pasvSocket, pasvBind, pasvListen, pasvAccept, pasvEnd, activeAfter,
      LeavesFlag]
  | pass => simp [dispatch, cmdPass, activeAfter]
  | pwd => simp [dispatch, cmdPwd, activeAfter]
  | mdtm => simp [dispatch, cmdMdtm, activeAfter]
  | syst => simp [dispatch, cmdSyst, activeAfter]
  | cdup => simp [dispatch, cmdCdup, activeAfter]
  | feat => simp [dispatch, cmdFeat, activeAfter]
  | quit => simp [dispatch, cmdQuit, activeAfter]
  | uknwn => simp [dispatch, cmdUnknown, activeAfter]

/-- A request of the session, with what lwIP promises and the sockets the session then holds. -/
def heldStep (w : Conn × Held) (req : Request) (w' : Conn × Held) : Prop :=
  sessionStep w.1 req w'.1 ∧ (∀ e ∈ req.calls, AcceptsAnother e) ∧
    w'.2 = heldBy req.cmd w.2 req.calls

/-- The data connection is closed while the flag is set, on a branch that leaves the flag. -/
def Forgets (conn : Conn) (req : Request) : Prop :=
  conn.pasvActive ≠ 0 ∧ req.calls.any closesPasv = true ∧ LeavesFlag req.cmd req.calls

theorem step_active {conn conn' : Conn} {req : Request} (h : sessionStep conn req conn') :
    conn'.pasvActive = activeAfter conn.pasvActive req.cmd req.calls := by
  obtain ⟨ret, hret, hserves⟩ := h
  rcases serves_cases hserves with ⟨-, -, hfailed⟩ | ⟨fuel, t, hcalls, hrun⟩
  · exact absurd hfailed hret
  · have hactive := dispatch_active fuel conn _ req.cmd req.parameter t _ hrun conn' ret rfl
    rw [hactive, hcalls]
    simp [activeAfter, LeavesFlag]

theorem step_held {w w' : Conn × Held} {req : Request} (h : heldStep w req w') :
    w'.2 w'.1.pasvSockfd = liveAfter req.calls (w.2 w.1.pasvSockfd) := by
  obtain ⟨⟨ret, -, hserves⟩, hlwip, hheld⟩ := h
  have huse := (serves_socketUse hserves).held w.2
    (fun e he => hlwip e (List.mem_filter.mp he).1)
  rw [hheld, ← heldBy_socketCalls, huse, liveAfter_socketCalls]

theorem flag_step_iff {w w' : Conn × Held} {req : Request} (hright : FlagRight w.1 w.2)
    (h : heldStep w req w') : FlagRight w'.1 w'.2 ↔ ¬Forgets w.1 req := by
  unfold FlagRight at *
  rw [step_held h, step_active h.1, Forgets, activeAfter, liveAfter]
  cases hcloses : req.calls.any closesPasv with
  | true =>
    by_cases hleaves : LeavesFlag req.cmd req.calls
    · simp [hleaves]
    · simp [hleaves]
  | false =>
    cases hopens : req.calls.any opensSocket with
    | true => simp
    | false => simpa using hright

theorem flagRight_accepted {conn : Conn} (hflag : conn.pasvActive = 0) :
    FlagRight conn (fun _ => false) := by
  simp [FlagRight, hflag]

/-- In every run of a session whose node came with the flag cleared and whose requests do not
forget it, the flag is right. -/
theorem flag_right {conn₀ : Conn} {reqs : List Request} {w : Conn × Held}
    (hflag : conn₀.pasvActive = 0)
    (hrun : Follows (Where (fun w req => ¬Forgets w.1 req) heldStep)
      (conn₀, fun _ => false) reqs w) :
    FlagRight w.1 w.2 := by
  apply Follows.invariant (fun w => FlagRight w.1 w.2) _ hrun (flagRight_accepted hflag)
  intro w req w' hright hstep
  exact (flag_step_iff hright hstep.2).mpr hstep.1

def retrEmpty : Request where
  received := bytes "RETR a\r\n"
  stale := []
  calls := [⟨.malloc, true⟩, ⟨.fOpen (bytes "a") faRead, FResult.ok⟩, ⟨.fSize, (0 : UInt32)⟩,
    ⟨.fClose, FResult.ok⟩, ⟨.fOpen (bytes "a") faRead, FResult.ok⟩,
    ⟨.reply .sockfd 1 (Reply.openingWhole (bytes "a") 0).text, 65⟩,
    ⟨.fRead 512, (FResult.ok, [])⟩, ⟨.reply .sockfd 1 Reply.finished.text, 15⟩,
    ⟨.fClose, FResult.ok⟩, ⟨.close .pasvSockfd 2, 0⟩]
  fits := by decide

theorem heldStep_port :
    heldStep (justAccepted, fun _ => false) portAnswered
      (connected, heldBy .port (fun _ => false) portAnswered.calls) := by
  refine ⟨⟨0, by decide, serves_portAnswered⟩, ?_, rfl⟩
  simp [portAnswered, AcceptsAnother]

theorem heldStep_retr (held : Held) :
    heldStep (connected, held) retrEmpty (connected, heldBy .retr held retrEmpty.calls) := by
  refine ⟨⟨0, by decide, serves_of_replay 1 rfl⟩, ?_, rfl⟩
  simp [retrEmpty, AcceptsAnother]

theorem flag_right_port :
    FlagRight connected (heldBy .port (fun _ => false) portAnswered.calls) := by
  have hkept : ¬Forgets justAccepted portAnswered := by
    rintro ⟨hflag, -⟩
    exact hflag rfl
  have hrun : Follows (Where (fun w req => ¬Forgets w.1 req) heldStep)
      (justAccepted, fun _ => false) [portAnswered]
      (connected, heldBy .port (fun _ => false) portAnswered.calls) :=
    ⟨_, ⟨hkept, heldStep_port⟩, rfl⟩
  exact flag_right rfl hrun

theorem flag_outlives_socket :
    ¬∀ conn₀ reqs (w : Conn × Held), Accepted conn₀ →
      Follows heldStep (conn₀, fun _ => false) reqs w → FlagRight w.1 w.2 := by
  intro h
  have hright := h justAccepted [portAnswered, retrEmpty] _ accepted_justAccepted
    ⟨_, heldStep_port, _, heldStep_retr _, rfl⟩
  have hheld : heldBy .retr (heldBy .port (fun _ => false) portAnswered.calls) retrEmpty.calls 2 =
      false := rfl
  have hset := hright.mp (by decide)
  exact absurd (hheld.symm.trans hset) (by decide)

end FtpServer
