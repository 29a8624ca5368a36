import FtpServer.Paths

/-! What a request does to the session record, whatever the calls answer, and which
paths it hands to FatFs. -/

namespace FtpServer
open Interaction CString Components

@[simp] def handedPath (e : CallEvent) : Option Bytes :=
  match e.call with
  | .fOpen path _ | .fMkdir path | .fUnlink path => some path
  | _ => none

def handedPaths (t : List CallEvent) : List Bytes := t.flatMap fun e => (handedPath e).toList

@[simp] theorem handedPaths_nil : handedPaths [] = [] := rfl

@[simp] theorem handedPaths_cons (e : CallEvent) (t : List CallEvent) :
    handedPaths (e :: t) = (handedPath e).toList ++ handedPaths t := rfl

@[simp] theorem handedPaths_append (t t' : List CallEvent) :
    handedPaths (t ++ t') = handedPaths t ++ handedPaths t' := List.flatMap_append

theorem handedPaths_eq_nil {t : List CallEvent} :
    handedPaths t = [] ↔ ∀ e ∈ t, handedPath e = none := by
  simp [handedPaths]

@[simp] theorem handedPaths_listTrace (line : FilInfo → Bytes) (via : Operand) (sock : Int)
    (entries : List (FilInfo × Int)) (last : FResult × FilInfo) :
    handedPaths (listTrace line via sock entries last) = [] := by
  rw [handedPaths_eq_nil, forall_mem_listTrace]
  simp

@[simp] theorem handedPaths_retrTrace (sock : Int) (blocks : List ReadBlock) (last : FResult) :
    handedPaths (retrTrace sock blocks last) = [] := by
  rw [handedPaths_eq_nil, forall_mem_retrTrace]
  simp

@[simp] theorem handedPaths_storTrace (conn : Conn) (blocks : List WriteBlock) (last : StorEnd) :
    handedPaths (storTrace conn blocks last) = [] := by
  rw [handedPaths_eq_nil, forall_mem_storTrace]
  cases last <;> simp [storTrace]

def takesPath : Cmd → Prop
  | .cwd | .retr | .stor | .size | .mkd | .dele | .rmd => True
  | _ => False

def nextDir (dir : Bytes) : Cmd → Option Bytes → Bytes
  | .list, _ => if 1 < dir.length ∧ dir.getLast? = some slash then dir.dropLast else dir
  | .cdup, _ => doStepDown dir
  | .cwd, some path => (fullPath dir path).2
  | .retr, some path | .stor, some path | .size, some path | .mkd, some path | .dele, some path
  | .rmd, some path => (fullPath dir path).1
  | _, _ => dir

/-- The four texts a request can leave in `currentdir`: the old one, its parent, the old one
without its last slash, and the path of a CWD. -/
theorem nextDir_cases (dir : Bytes) (cmd : Cmd) (parameter : Option Bytes) :
    nextDir dir cmd parameter = dir ∨ nextDir dir cmd parameter = doStepDown dir ∨
    (1 < dir.length ∧ nextDir dir cmd parameter = dir.take (dir.length - 1)) ∨
    ∃ path, cmd = .cwd ∧ parameter = some path ∧
      nextDir dir cmd parameter = (fullPath dir path).2 := by
  cases cmd with
  | list =>
    rw [nextDir]
    split
    · rename_i hends
      exact .inr (.inr (.inl ⟨hends.1, List.dropLast_eq_take⟩))
    · exact .inl rfl
  | cdup => exact .inr (.inl rfl)
  | cwd =>
    cases parameter with
    | none => exact .inl rfl
    | some path => exact .inr (.inr (.inr ⟨path, rfl, rfl, rfl⟩))
  | retr | stor | size | mkd | dele | rmd =>
    cases parameter with
    | none => exact .inl rfl
    | some path =>
      cases fullPath_fst dir path with
      | inl hsame => exact .inl hsame
      | inr hdown => exact .inr (.inl hdown)
  | _ => exact .inl rfl

/-- `offset` changes in REST, and in a RETR that finds no file. -/
def NextOffset (offset : UInt32) : Cmd → Option Bytes → UInt32 → Prop
  | .rest, some n, offset' => offset' = if 0 ≤ atoi n then dwordOfInt (atoi n) else offset
  | .retr, _, offset' => offset' = offset ∨ offset' = 0
  | _, _, offset' => offset' = offset

@[mk_iff] structure Effect (conn : Conn) (cmd : Cmd) (parameter : Option Bytes)
    (t : List CallEvent) (conn' : Conn) : Prop where
  sockfd : conn'.sockfd = conn.sockfd
  remote : conn'.remote = conn.remote
  currentdir : conn'.currentdir = nextDir conn.currentdir cmd parameter
  offset : NextOffset conn.offset cmd parameter conn'.offset
  built : takesPath cmd → ∃ arg, parameter = some arg ∧
    (fullPath conn.currentdir arg).2.length < 256
  paths : ∀ path ∈ handedPaths t, takesPath cmd ∧
    ∃ arg, parameter = some arg ∧ path = (fullPath conn.currentdir arg).2

def HasEffect (conn : Conn) (cmd : Cmd) (parameter : Option Bytes) (t : List CallEvent)
    (r : Except Fault (Conn × Int)) : Prop :=
  ∀ conn' ret, r = .ok (conn', ret) → Effect conn cmd parameter t conn'

@[simp] theorem hasEffect_error (conn : Conn) (cmd : Cmd) (parameter : Option Bytes)
    (t : List CallEvent) (e : Fault) : HasEffect conn cmd parameter t (.error e) := by
  intro conn' ret h
  cases h

@[simp] theorem hasEffect_ok (conn : Conn) (cmd : Cmd) (parameter : Option Bytes)
    (t : List CallEvent) (conn' : Conn) (ret : Int) :
    HasEffect conn cmd parameter t (.ok (conn', ret)) ↔ Effect conn cmd parameter t conn' := by
  simp [HasEffect]

theorem cmdPort_effect (conn : Conn) (parameter : Option Bytes) :
    Always (cmdPort conn parameter) (HasEffect conn .port parameter) := by
  refine always_cmdPort conn parameter ?_ ?_ ?_
  · simp [HasEffect, effect_iff]
  · exact hasEffect_error conn .port parameter _ _
  · simp [portConnect, portConnected, effect_iff, nextDir, NextOffset, takesPath]

theorem dispatch_effect (fuel : Nat) (conn : Conn) (buf : Bytes) (cmd : Cmd)
    (parameter : Option Bytes) :
    Always (dispatch fuel conn buf cmd parameter) (HasEffect conn cmd parameter) := by
  cases cmd with
  | port => exact cmdPort_effect conn parameter
  | user => cases parameter <;> simp [dispatch, cmdUser, effect_iff, nextDir, NextOffset, takesPath]
  | type => cases parameter <;> simp [dispatch, cmdType, effect_iff, nextDir, NextOffset, takesPath]
  | rest =>
    cases parameter <;>
      simp +contextual [dispatch, cmdRest, effect_iff, nextDir, NextOffset, takesPath]
  | cwd =>
    cases parameter <;>
      simp +contextual [dispatch, cmdCwd, effect_iff, nextDir, NextOffset, takesPath]
  | retr =>
    cases parameter <;>
      simp +contextual [dispatch, cmdRetr, retrSeek, effect_iff, nextDir, NextOffset, takesPath]
  | stor =>
    cases parameter <;>
      simp +contextual [dispatch, cmdStor, effect_iff, nextDir, NextOffset, takesPath]
  | size =>
    cases parameter <;>
      simp +contextual [dispatch, cmdSize, effect_iff, nextDir, NextOffset, takesPath]
  | mkd =>
    cases parameter <;>
      simp +contextual [dispatch, cmdMkd, cmdOnPath, effect_iff, nextDir, NextOffset, takesPath]
  | dele =>
    cases parameter <;>
      simp +contextual [dispatch, cmdDele, cmdOnPath, effect_iff, nextDir, NextOffset, takesPath]
  | rmd =>
    cases parameter <;>
      simp +contextual [dispatch, cmdRmd, cmdOnPath, effect_iff, nextDir, NextOffset, takesPath]
  | list => simp [dispatch, cmdList, doFullList, effect_iff, nextDir, NextOffset, takesPath]
  | nlst => simp [dispatch, cmdNlst, doSimpleList, effect_iff, nextDir, NextOffset, takesPath]
  | pasv =>
    simp [dispatch, cmdPasv, pasvSocket, pasvBind, pasvListen, pasvAccept, pasvEnd, effect_iff,
      nextDir, NextOffset, takesPath]
  | pass => simp [dispatch, cmdPass, effect_iff, nextDir, NextOffset, takesPath]
  | pwd => simp [dispatch, cmdPwd, effect_iff, nextDir, NextOffset, takesPath]
  | mdtm => simp [dispatch, cmdMdtm, effect_iff, nextDir, NextOffset, takesPath]
  | syst => simp [dispatch, cmdSyst, effect_iff, nextDir, NextOffset, takesPath]
  | cdup => simp [dispatch, cmdCdup, effect_iff, nextDir, NextOffset, takesPath]
  | feat => simp [dispatch, cmdFeat, effect_iff, nextDir, NextOffset, takesPath]
  | quit => simp [dispatch, cmdQuit, effect_iff, nextDir, NextOffset, takesPath]
  | uknwn => simp [dispatch, cmdUnknown, effect_iff, nextDir, NextOffset, takesPath]

end FtpServer
