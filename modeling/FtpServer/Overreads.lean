import FtpServer.Bounds
import FtpServer.Lengths

/-! `do_send_reply` sends as many bytes as `vsnprintf` would have written, not as many as its
buffer holds. Which requests keep every reply inside the buffer. -/

namespace FtpServer
open Interaction CString

/-- More bytes are sent than were stored. -/
@[simp] def OverRead : CallEvent → Prop
  | ⟨.reply _ _ text, _⟩ => 255 < text.length
  | _ => False

section Loops

@[simp] theorem overRead_listTrace {line : FilInfo → Bytes}
    (hline : ∀ fno, (line fno).length < 256) (via : Operand) (sock : Int)
    (entries : List (FilInfo × Int)) (last : FResult × FilInfo) :
    ¬Occurs OverRead (listTrace line via sock entries last) := by
  rw [not_occurs, forall_mem_listTrace]
  refine ⟨fun entry _ => ⟨by simp, ?_⟩, by simp⟩
  have hshort := hline entry.1
  simp
  omega

@[simp] theorem overRead_retrTrace (sock : Int) (blocks : List ReadBlock) (last : FResult) :
    ¬Occurs OverRead (retrTrace sock blocks last) := by
  rw [not_occurs, forall_mem_retrTrace]
  simp

@[simp] theorem overRead_storTrace (conn : Conn) (blocks : List WriteBlock) (last : StorEnd) :
    ¬Occurs OverRead (storTrace conn blocks last) := by
  rw [not_occurs, forall_mem_storTrace]
  cases last <;> simp [storTrace, Reply.size]

end Loops

/-- The replies RETR can give: an error, or one that also shows the size of the file and, after
a REST inside it, what is left of it. -/
def RetrEchoFits (offset : UInt32) (path : Bytes) : Prop :=
  path.length ≤ 226 ∧ ∀ size, intOfDword size ≠ -1 →
    if restarts offset (intOfDword size) then
      path.length + (showInt (intOfDword (size - offset))).length +
        (showInt (intOfDword size)).length ≤ 188
    else path.length + (showInt (intOfDword size)).length ≤ 197

def EchoFits (dir : Bytes) (offset : UInt32) : Cmd → Option Bytes → Prop
  | .user, some name => name.length ≤ 225
  | .pwd, _ => dir.length ≤ 225
  | .cdup, _ => (doStepDown dir).length ≤ 226
  | .cwd, some arg | .size, some arg => (fullPath dir arg).2.length ≤ 226
  | .stor, some arg => (fullPath dir arg).2.length ≤ 206
  | .mkd, some arg | .rmd, some arg => (fullPath dir arg).2.length ≤ 211
  | .dele, some arg => (fullPath dir arg).2.length ≤ 216
  | .retr, some arg => RetrEchoFits offset (fullPath dir arg).2
  | _, _ => True

theorem forall_result_iff {p q : Prop} :
    (∀ rc : FResult, (rc = .ok → p) ∧ (¬rc = .ok → q)) ↔ p ∧ q := by
  constructor
  · intro h
    exact ⟨(h .ok).1 rfl, (h .noFile).2 (by decide)⟩
  · intro h rc
    exact ⟨fun _ => h.1, fun _ => h.2⟩

theorem cmdStor_overRead (conn : Conn) (arg : Bytes) :
    (∀ fuel, Always (cmdStor fuel conn (some arg)) (fun t _ => ¬Occurs OverRead t)) ↔
      ((fullPath conn.currentdir arg).2.length < 256 →
        (fullPath conn.currentdir arg).2.length ≤ 206) := by
  simp [cmdStor, Reply.size]
  constructor
  · intro h hfits
    exact (h 1 hfits .ok).1 rfl [] (.timeout ⟨0, false⟩) (by simp) (by simp)
      (by simp [StorEnd.Stops])
  · intro hroom fuel hfits rc
    have hlen := hroom hfits
    exact ⟨fun _ _ _ _ _ _ => hlen, fun _ => by omega⟩

theorem cmdRetr_overRead (conn : Conn) (buf arg : Bytes) :
    (∀ fuel, Always (cmdRetr fuel conn buf (some arg)) (fun t _ => ¬Occurs OverRead t)) ↔
      ((cstr (buf.drop 5)).length < 256 → (fullPath conn.currentdir arg).2.length < 256 →
        RetrEchoFits conn.offset (fullPath conn.currentdir arg).2) := by
  simp [cmdRetr, retrSeek, Reply.size, Buffer.size]
  constructor
  · intro h hcopy hfits
    obtain ⟨hsize, hfailed⟩ := h 1 hcopy hfits
    refine ⟨hfailed .noFile (by decide), fun size hne => ?_⟩
    have hopened := (hsize size).2 hne
    split
    · rename_i hrestarts
      simpa [dwordOfInt_intOfDword] using hopened.1 hrestarts [] (by simp) (by simp)
    · rename_i hwhole
      exact hopened.2 hwhole [] (by simp) (by simp)
  · intro hroom fuel hcopy hfits
    obtain ⟨hpath, hsize⟩ := hroom hcopy hfits
    refine ⟨fun size => ⟨fun _ => hpath, fun hne => ?_⟩, fun _ _ => hpath⟩
    have hopened := hsize size hne
    constructor
    · intro hrestarts _ _ _
      simpa [hrestarts, dwordOfInt_intOfDword] using hopened
    · intro hwhole _ _ _
      simpa [hwhole] using hopened

theorem cmdPort_overRead (conn : Conn) (parameter : Option Bytes) :
    Always (cmdPort conn parameter) (fun t _ => ¬Occurs OverRead t) := by
  refine always_cmdPort conn parameter ?_ ?_ ?_
  · simp
  · simp
  · simp [portConnect, portConnected, Reply.size]

theorem cmdPasv_overRead (conn : Conn) :
    Always (cmdPasv conn) (fun t _ => ¬Occurs OverRead t) := by
  have hpassive : ∀ addr port, ¬255 < (Reply.enteringPassive addr port).size := by
    intro addr port
    have hsize := enteringPassive_size addr port
    omega
  have hfailed : ¬255 < Reply.cannotOpen.size := by decide
  simp [cmdPasv, pasvSocket, pasvBind, pasvListen, pasvAccept, pasvEnd, hpassive, hfailed]

theorem cmdList_overRead (fuel : Nat) (conn : Conn) :
    Always (cmdList fuel conn) (fun t _ => ¬Occurs OverRead t) := by
  simp [cmdList, doFullList, overRead_listTrace length_listLine_lt, Reply.size]

theorem cmdNlst_overRead (fuel : Nat) (conn : Conn) :
    Always (cmdNlst fuel conn) (fun t _ => ¬Occurs OverRead t) := by
  simp [cmdNlst, doSimpleList, overRead_listTrace length_nameLine_lt, Reply.size]

theorem dispatch_overRead {conn : Conn} (hdir : conn.currentdir.length ≤ 255) (buf : Bytes)
    (cmd : Cmd) (parameter : Option Bytes) :
    (∀ fuel, Always (dispatch fuel conn buf cmd parameter) (fun t _ => ¬Occurs OverRead t)) ↔
      (CommandFits conn.currentdir buf cmd parameter →
        EchoFits conn.currentdir conn.offset cmd parameter) := by
  have hfits : ∀ path, (fullPath conn.currentdir path).2.length < 256 ↔
      PathFits conn.currentdir path := fun path => fullPath_fits hdir
  cases cmd with
  | port => simpa [dispatch, EchoFits] using cmdPort_overRead conn parameter
  | pasv => simpa [dispatch, EchoFits] using cmdPasv_overRead conn
  | list => simpa [dispatch, EchoFits] using fun fuel => cmdList_overRead fuel conn
  | nlst => simpa [dispatch, EchoFits] using fun fuel => cmdNlst_overRead fuel conn
  | stor =>
    cases parameter with
    | none => simp [dispatch, cmdStor, EchoFits]
    | some arg =>
      have hstor := cmdStor_overRead conn arg
      simpa [dispatch, CommandFits, takesPath, EchoFits, ← hfits] using hstor
  | retr =>
    cases parameter with
    | none => simp [dispatch, cmdRetr, EchoFits]
    | some arg =>
      have hretr := cmdRetr_overRead conn buf arg
      simpa [dispatch, CommandFits, takesPath, EchoFits, ← hfits, Nat.lt_succ_iff] using hretr
  | cwd =>
    cases parameter with
    | none => simp [dispatch, cmdCwd, EchoFits]
    | some arg =>
      simp [dispatch, cmdCwd, CommandFits, takesPath, EchoFits, ← hfits, Reply.size]
      omega
  | size =>
    cases parameter with
    | none => simp [dispatch, cmdSize, EchoFits]
    | some arg =>
      simp [dispatch, cmdSize, CommandFits, takesPath, EchoFits, ← hfits, Reply.size]
      constructor
      · intro h hlen
        exact (h hlen).2 .noFile (by decide)
      · intro h hlen
        have hroom := h hlen
        refine ⟨fun size => ⟨fun _ => hroom, fun _ => ?_⟩, fun _ _ => hroom⟩
        have hdigits := showInt_dword_length size
        omega
  | mkd =>
    cases parameter with
    | none => simp [dispatch, cmdMkd, cmdOnPath, EchoFits]
    | some arg =>
      simp [dispatch, cmdMkd, cmdOnPath, CommandFits, takesPath, EchoFits, ← hfits, Reply.size,
        forall_result_iff]
      omega
  | dele =>
    cases parameter with
    | none => simp [dispatch, cmdDele, cmdOnPath, EchoFits]
    | some arg =>
      simp [dispatch, cmdDele, cmdOnPath, CommandFits, takesPath, EchoFits, ← hfits, Reply.size,
        forall_result_iff]
      omega
  | rmd =>
    cases parameter with
    | none => simp [dispatch, cmdRmd, cmdOnPath, EchoFits]
    | some arg =>
      simp [dispatch, cmdRmd, cmdOnPath, CommandFits, takesPath, EchoFits, ← hfits, Reply.size,
        forall_result_iff]
      omega
  | user =>
    cases parameter with
    | none => simp [dispatch, cmdUser, EchoFits]
    | some name => simp [dispatch, cmdUser, CommandFits, takesPath, EchoFits, Reply.size]
  | type => cases parameter <;> simp [dispatch, cmdType, EchoFits, Reply.size]
  | rest => cases parameter <;> simp [dispatch, cmdRest, EchoFits, Reply.size]
  | cdup =>
    have hdown := doStepDown_length_le conn.currentdir
    simp [dispatch, cmdCdup, CommandFits, takesPath, EchoFits, Reply.size, Buffer.size]
    omega
  | pwd => simp [dispatch, cmdPwd, CommandFits, takesPath, EchoFits, Reply.size]
  | pass => simp [dispatch, cmdPass, EchoFits, Reply.size]
  | mdtm => simp [dispatch, cmdMdtm, EchoFits, Reply.size]
  | syst => simp [dispatch, cmdSyst, EchoFits, Reply.size]
  | feat => simp [dispatch, cmdFeat, EchoFits, Reply.size]
  | quit => simp [dispatch, cmdQuit, EchoFits, Reply.size]
  | uknwn => simp [dispatch, cmdUnknown, EchoFits, Reply.size]

/-- Serving what was received sends nothing but what was formatted, whatever the calls
answer. -/
def RepliesFit (conn : Conn) (received stale : Bytes) : Prop :=
  ∀ fuel, Always (serveReceived fuel conn received stale) (fun t _ => ¬Occurs OverRead t)

def ReceivedEchoFits (conn : Conn) (received stale : Bytes) : Prop :=
  EchoFits conn.currentdir conn.offset (parseRequest (received ++ 0 :: stale)).1
    (parseRequest (received ++ 0 :: stale)).2

/-- From every reachable state, no reply to a request is read beyond its buffer exactly when
what it echoes fits the reply. A request that overflows another buffer first leaves the rest of
its run undefined, and no reply of it is spoken of. -/
theorem repliesFit_iff {conn : Conn} (h : Reachable conn) (received stale : Bytes) :
    RepliesFit conn received stale ↔
      (ReceivedFits conn received stale → ReceivedEchoFits conn received stale) := by
  have hdispatch := dispatch_overRead h.dir_length (stripLineEnds (received ++ 0 :: stale))
    (parseRequest (received ++ 0 :: stale)).1 (parseRequest (received ++ 0 :: stale)).2
  unfold RepliesFit ReceivedFits ReceivedEchoFits
  rw [and_imp, ← hdispatch]
  simp only [always_serveReceived, always_ftpProcessRequest, occurs_cons, occurs_nil, OverRead,
    false_or, or_false, not_false_eq_true, and_true, implies_true]
  exact ⟨fun hall hlen fuel => hall fuel hlen, fun hall fuel hlen => hall hlen fuel⟩

theorem repliesFit_iff_deep :
    RepliesFit { justAccepted with currentdir := deepDir } (storName 5) [] ∧
      ¬RepliesFit { justAccepted with currentdir := deepDir } (storName 6) [] := by
  have hshort : ReceivedEchoFits { justAccepted with currentdir := deepDir } (storName 5) [] := by
    have hpair : parseRequest (storName 5 ++ [0]) =
        (.stor, some (List.replicate 5 (byte 'f'))) := by decide +kernel
    rw [ReceivedEchoFits, hpair]
    change (fullPath deepDir _).2.length ≤ 206
    decide +kernel
  have hpair : parseRequest (storName 6 ++ [0]) =
      (.stor, some (List.replicate 6 (byte 'f'))) := by decide +kernel
  have hfits : ReceivedFits { justAccepted with currentdir := deepDir } (storName 6) [] := by
    rw [ReceivedFits, hpair]
    refine ⟨by decide, by simp, fun _ path hpath => ?_⟩
    obtain rfl := Option.some.inj hpath
    rw [PathFits]
    decide +kernel
  have hlong : ¬ReceivedEchoFits { justAccepted with currentdir := deepDir } (storName 6) [] := by
    rw [ReceivedEchoFits, hpair]
    change ¬(fullPath deepDir _).2.length ≤ 206
    decide +kernel
  exact ⟨(repliesFit_iff reachable_deep _ _).mpr fun _ => hshort,
    fun h => hlong ((repliesFit_iff reachable_deep _ _).mp h hfits)⟩

def longName : Bytes := List.replicate 226 (byte 'A')

theorem length_longName : longName.length = 226 := List.length_replicate

set_option maxRecDepth 4000 in
theorem long_name_served :
    Runs (serveReceived 0 justAccepted (bytes "USER " ++ longName) [])
      [⟨.malloc, true⟩, ⟨.reply .sockfd 1 (Reply.passwordRequired longName).text, 256⟩]
      (.ok (justAccepted, 0)) :=
  runs_of_replay rfl

set_option maxRecDepth 4000 in
theorem long_name_overRead :
    ¬∀ conn received stale, Reachable conn → received.length ≤ ftpBufferSize →
      RepliesFit conn received stale := by
  intro h
  have hreach : Reachable justAccepted := ⟨justAccepted, [], accepted_justAccepted, rfl⟩
  have hlen : (bytes "USER " ++ longName).length ≤ ftpBufferSize := by
    rw [List.length_append, length_longName]
    decide
  have hfits : RepliesFit justAccepted (bytes "USER " ++ longName) [] := h _ _ _ hreach hlen
  have hshort := hfits 0 _ _ long_name_served
  have hlong : 255 < (Reply.passwordRequired longName).text.length := by
    rw [length_text, Reply.size, length_longName]
    decide
  exact hshort ⟨_, List.mem_cons_of_mem _ (List.mem_singleton_self _), hlong⟩

end FtpServer
