import FtpServer.Cmds

/-! `ftp_process_request`: one definition for each branch of its switch. A branch
returns the session it leaves and the value of `ret`. `fuel` bounds the listing
and transfer loops. Sleeping, the debug output and the blinking of the leds are
left out. -/

namespace FtpServer
open Interaction CString

/-- The loop that cuts a request at its line end: every CR and LF before the first
NUL becomes a NUL. -/
def stripLineEnds : Bytes → Bytes
  | [] => []
  | b :: mem =>
    if b = 0 then b :: mem
    else (if b = byte '\r' ∨ b = byte '\n' then 0 else b) :: stripLineEnds mem

def parameterPtr (buf : Bytes) : Option Bytes := (strchr (byte ' ') (cstr buf)).map List.tail

def cmdUser (conn : Conn) (parameter : Option Bytes) : Ftp (Conn × Int) := do
  let name ← deref parameter
  doSendReply .sockfd conn.sockfd (Reply.passwordRequired name).text
  pure (conn, 0)

def cmdPass (conn : Conn) : Ftp (Conn × Int) := do
  doSendReply .sockfd conn.sockfd Reply.passwordOk.text
  pure (conn, 0)

def cmdList (fuel : Nat) (conn : Conn) : Ftp (Conn × Int) := do
  doSendReply .sockfd conn.sockfd Reply.openingList.text
  let (currentdir, _) ← doFullList fuel conn.currentdir .pasvSockfd conn.pasvSockfd
  let _ ← close .pasvSockfd conn.pasvSockfd
  doSendReply .sockfd conn.sockfd Reply.transferComplete.text
  pure ({ conn with currentdir := currentdir, pasvActive := 0 }, 0)

def cmdNlst (fuel : Nat) (conn : Conn) : Ftp (Conn × Int) := do
  doSendReply .sockfd conn.sockfd Reply.openingList.text
  let _ ← doSimpleList fuel conn.currentdir .pasvSockfd conn.pasvSockfd
  let _ ← close .pasvSockfd conn.pasvSockfd
  doSendReply .sockfd conn.sockfd Reply.transferComplete.text
  pure ({ conn with pasvActive := 0 }, 0)

def cmdType (conn : Conn) (parameter : Option Bytes) : Ftp (Conn × Int) := do
  let mode ← deref parameter
  if mode = bytes "I" then do
    doSendReply .sockfd conn.sockfd Reply.typeBinary.text
    pure (conn, 0)
  else do
    doSendReply .sockfd conn.sockfd Reply.typeAscii.text
    pure (conn, 0)

/-- The read loop of RETR; the read that returns nothing is not sent. -/
def retrLoop (sock : Int) : Nat → Ftp Unit
  | 0 => .stuck
  | fuel + 1 => do
    let (_, data) ← fRead ftpBufferSize
    if 0 < data.length then do
      let _ ← send .pasvSockfd sock data
      retrLoop sock fuel
    else pure ()

/-- One turn of the read loop: the result of `f_read`, the bytes it gave, the answer
of `send`. -/
structure ReadBlock where
  rc : FResult
  data : Bytes
  sent : Int
  deriving DecidableEq, Repr

def retrTrace (sock : Int) : List ReadBlock → FResult → List CallEvent
  | [], last => [⟨.fRead ftpBufferSize, (last, [])⟩]
  | block :: blocks, last =>
    ⟨.fRead ftpBufferSize, (block.rc, block.data)⟩ ::
      ⟨.send .pasvSockfd sock block.data, block.sent⟩ :: retrTrace sock blocks last

theorem forall_mem_retrTrace {p : CallEvent → Prop} (sock : Int) (blocks : List ReadBlock)
    (last : FResult) :
    (∀ e ∈ retrTrace sock blocks last, p e) ↔
      (∀ block ∈ blocks, p ⟨.fRead ftpBufferSize, (block.rc, block.data)⟩ ∧
        p ⟨.send .pasvSockfd sock block.data, block.sent⟩) ∧
      p ⟨.fRead ftpBufferSize, (last, [])⟩ := by
  induction blocks with
  | nil => simp [retrTrace]
  | cons block blocks ih =>
    rw [retrTrace, List.forall_mem_cons, List.forall_mem_cons, List.forall_mem_cons, ih]
    tauto

@[simp] theorem always_retrLoop {post : List CallEvent → Except Fault Unit → Prop} (sock : Int)
    (fuel : Nat) :
    Always (retrLoop sock fuel) post ↔
      ∀ blocks last, blocks.length < fuel → (∀ block ∈ blocks, block.data ≠ []) →
        post (retrTrace sock blocks last) (.ok ()) := by
  induction fuel generalizing post with
  | zero => simp [retrLoop]
  | succ fuel ih =>
    simp only [retrLoop, always_bind, always_call, then_ok, always_ite, always_pure, ih]
    constructor
    · rintro h (_ | ⟨block, blocks⟩) last hlen hdata
      · exact (h (last, [])).2 (by simp)
      · have hne : 0 < block.data.length := List.length_pos_iff.mpr (hdata block (by simp))
        exact (h (block.rc, block.data)).1 hne block.sent blocks last (by simpa using hlen)
          (fun b hb => hdata b (by simp [hb]))
    · rintro h ⟨rc, data⟩
      constructor
      · intro hne k blocks last hlen hdata
        have hdata' : data ≠ [] := List.length_pos_iff.mp hne
        exact h (⟨rc, data, k⟩ :: blocks) last (by simpa using hlen)
          (by simpa [hdata'] using hdata)
      · intro hne
        have hdata : data = [] := by simpa using hne
        subst hdata
        exact h [] rc (by simp) (by simp)

/-- The offset is used only strictly inside the file; it is compared unsigned. -/
def restarts (offset : UInt32) (numBytes : Int) : Prop :=
  0 < offset ∧ offset < dwordOfInt numBytes

instance (offset : UInt32) (numBytes : Int) : Decidable (restarts offset numBytes) :=
  inferInstanceAs (Decidable (_ ∧ _))

def retrSeek (conn : Conn) (path : Bytes) (numBytes : Int) : Ftp Unit :=
  if restarts conn.offset numBytes then do
    let _ ← fLseek conn.offset
    doSendReply .sockfd conn.sockfd
      (Reply.openingPartial path (intOfDword (dwordOfInt numBytes - conn.offset)) numBytes).text
  else
    doSendReply .sockfd conn.sockfd (Reply.openingWhole path numBytes).text

def cmdRetr (fuel : Nat) (conn : Conn) (buf : Bytes) (parameter : Option Bytes) :
    Ftp (Conn × Int) := do
  strcpy .spareBuf (cstr (buf.drop 5))
  let (conn, path) ← doFullPath conn parameter
  let numBytes ← doGetFilesize path
  if numBytes = -1 then do
    doSendReply .sockfd conn.sockfd (Reply.notRegular path).text
    pure ({ conn with offset := 0 }, 0)
  else do
    let rc ← fOpen path faRead
    if rc ≠ .ok then pure (conn, 0)
    else do
      retrSeek conn path numBytes
      retrLoop conn.pasvSockfd fuel
      doSendReply .sockfd conn.sockfd Reply.finished.text
      let _ ← fClose
      let _ ← close .pasvSockfd conn.pasvSockfd
      pure (conn, 0)

/-- The receive loop of STOR, left when `select` reports nothing within three seconds,
when the client closes, or on an error; it returns `ret`. -/
def storLoop (conn : Conn) : Nat → Ftp Int
  | 0 => .stuck
  | fuel + 1 => do
    let ready ← select .pasvSockfd conn.pasvSockfd
    if 0 < ready.ret then do
      let data ← recv .pasvSockfd conn.pasvSockfd ftpBufferSize
      match data with
      | some (b :: data) => do
        let _ ← fWrite (b :: data)
        storLoop conn fuel
      | some [] => do
        let _ ← fClose
        doSendReply .sockfd conn.sockfd Reply.finished.text
        pure 0
      | none => do
        let _ ← fClose
        pure (-1)
    else pure 0

structure WriteBlock where
  ready : SelectResult
  data : Bytes
  written : FResult × Nat
  deriving DecidableEq, Repr

/-- The last turn: nothing to read in time, the client's close (with the results of
`f_close` and of the 226 reply), or an error. -/
inductive StorEnd where
  | timeout (ready : SelectResult)
  | closed (ready : SelectResult) (rc : FResult) (sent : Int)
  | lost (ready : SelectResult) (rc : FResult)
  deriving DecidableEq, Repr

def WriteBlock.Goes (block : WriteBlock) : Prop := 0 < block.ready.ret ∧ block.data ≠ []

def StorEnd.Stops : StorEnd → Prop
  | timeout ready => ready.ret ≤ 0
  | closed ready _ _ | lost ready _ => 0 < ready.ret

def StorEnd.ret : StorEnd → Int
  | timeout _ | closed _ _ _ => 0
  | lost _ _ => -1

def storTrace (conn : Conn) : List WriteBlock → StorEnd → List CallEvent
  | [], .timeout ready => [⟨.select .pasvSockfd conn.pasvSockfd, ready⟩]
  | [], .closed ready rc sent =>
    [⟨.select .pasvSockfd conn.pasvSockfd, ready⟩,
      ⟨.recv .pasvSockfd conn.pasvSockfd ftpBufferSize, some []⟩, ⟨.fClose, rc⟩,
      ⟨.reply .sockfd conn.sockfd Reply.finished.text, sent⟩]
  | [], .lost ready rc =>
    [⟨.select .pasvSockfd conn.pasvSockfd, ready⟩,
      ⟨.recv .pasvSockfd conn.pasvSockfd ftpBufferSize, none⟩, ⟨.fClose, rc⟩]
  | block :: blocks, last =>
    ⟨.select .pasvSockfd conn.pasvSockfd, block.ready⟩ ::
      ⟨.recv .pasvSockfd conn.pasvSockfd ftpBufferSize, some block.data⟩ ::
      ⟨.fWrite block.data, block.written⟩ :: storTrace conn blocks last

theorem forall_mem_storTrace {p : CallEvent → Prop} (conn : Conn) (blocks : List WriteBlock)
    (last : StorEnd) :
    (∀ e ∈ storTrace conn blocks last, p e) ↔
      (∀ block ∈ blocks, p ⟨.select .pasvSockfd conn.pasvSockfd, block.ready⟩ ∧
        p ⟨.recv .pasvSockfd conn.pasvSockfd ftpBufferSize, some block.data⟩ ∧
        p ⟨.fWrite block.data, block.written⟩) ∧
      ∀ e ∈ storTrace conn [] last, p e := by
  induction blocks with
  | nil => simp
  | cons block blocks ih =>
    rw [storTrace, List.forall_mem_cons, List.forall_mem_cons, List.forall_mem_cons,
      List.forall_mem_cons, ih]
    tauto

@[simp] theorem always_storLoop {post : List CallEvent → Except Fault Int → Prop} (conn : Conn)
    (fuel : Nat) :
    Always (storLoop conn fuel) post ↔
      ∀ blocks last, blocks.length < fuel → (∀ block ∈ blocks, block.Goes) → last.Stops →
        post (storTrace conn blocks last) (.ok last.ret) := by
  induction fuel generalizing post with
  | zero => simp [storLoop]
  | succ fuel ih =>
    simp only [storLoop, always_bind, always_call, then_ok, always_ite, always_pure]
    constructor
    · rintro h (_ | ⟨⟨ready, data, written⟩, blocks⟩) last hlen hgoes hstops
      · cases last with
        | timeout ready => exact (h ready).2 (by simpa [StorEnd.Stops] using hstops)
        | closed ready rc sent =>
          have hturn := (h ready).1 hstops (some [])
          simp only [always_bind, always_call, then_ok, always_pure,
            always_doSendReply (Reply.text_ne_nil _)] at hturn
          exact hturn rc sent
        | lost ready rc =>
          have hturn := (h ready).1 hstops none
          simp only [always_bind, always_call, then_ok, always_pure] at hturn
          exact hturn rc
      · obtain ⟨hready, hdata⟩ := hgoes ⟨ready, data, written⟩ (by simp)
        obtain ⟨b, data, rfl⟩ := List.exists_cons_of_ne_nil hdata
        have hturn := (h ready).1 hready (some (b :: data))
        simp only [always_bind, always_call, then_ok, ih] at hturn
        exact hturn written blocks last (by simpa using hlen)
          (fun c hc => hgoes c (by simp [hc])) hstops
    · intro h ready
      constructor
      · intro hready data
        cases data with
        | none =>
          simp only [always_bind, always_call, then_ok, always_pure]
          exact fun rc => h [] (.lost ready rc) (by simp) (by simp) hready
        | some data =>
          cases data with
          | nil =>
            simp only [always_bind, always_call, then_ok, always_pure,
              always_doSendReply (Reply.text_ne_nil _)]
            exact fun rc sent => h [] (.closed ready rc sent) (by simp) (by simp) hready
          | cons b data =>
            simp only [always_bind, always_call, then_ok, ih]
            intro written blocks last hlen hgoes hstops
            exact h (⟨ready, b :: data, written⟩ :: blocks) last (by simpa using hlen)
              (by simpa [WriteBlock.Goes, hready] using hgoes) hstops
      · intro hready
        exact h [] (.timeout ready) (by simp) (by simp) (by simpa [StorEnd.Stops] using hready)

def cmdStor (fuel : Nat) (conn : Conn) (parameter : Option Bytes) : Ftp (Conn × Int) := do
  let (conn, path) ← doFullPath conn parameter
  let rc ← fOpen path (faWrite ||| faOpenAlways)
  if rc ≠ .ok then do
    doSendReply .sockfd conn.sockfd (Reply.cannotWrite path).text
    pure (conn, 0)
  else do
    doSendReply .sockfd conn.sockfd (Reply.openingUpload path).text
    let ret ← storLoop conn fuel
    let _ ← close .pasvSockfd conn.pasvSockfd
    pure (conn, ret)

def cmdSize (conn : Conn) (parameter : Option Bytes) : Ftp (Conn × Int) := do
  let (conn, path) ← doFullPath conn parameter
  let numBytes ← doGetFilesize path
  if numBytes = -1 then do
    doSendReply .sockfd conn.sockfd (Reply.notRegular path).text
    pure (conn, 0)
  else do
    doSendReply .sockfd conn.sockfd (Reply.sizeIs numBytes).text
    pure (conn, 0)

def cmdMdtm (conn : Conn) : Ftp (Conn × Int) := do
  doSendReply .sockfd conn.sockfd Reply.noMdtm.text
  pure (conn, 0)

def cmdSyst (conn : Conn) : Ftp (Conn × Int) := do
  doSendReply .sockfd conn.sockfd Reply.unixType.text
  pure (conn, 0)

def cmdPwd (conn : Conn) : Ftp (Conn × Int) := do
  doSendReply .sockfd conn.sockfd (Reply.currentDirectory conn.currentdir).text
  pure (conn, 0)

def cmdCwd (conn : Conn) (parameter : Option Bytes) : Ftp (Conn × Int) := do
  let (conn, path) ← doFullPath conn parameter
  doSendReply .sockfd conn.sockfd (Reply.changedTo path).text
  strcpy .currentdir path
  pure ({ conn with currentdir := path }, 0)

def cmdCdup (conn : Conn) : Ftp (Conn × Int) := do
  strcpy .spareBuf conn.currentdir
  let path := doStepDown conn.currentdir
  strcpy .currentdir path
  doSendReply .sockfd conn.sockfd (Reply.changedTo path).text
  pure ({ conn with currentdir := path }, 0)

def portDelims : Bytes := bytes ".,;()"

/-- The first `n` fields of a PORT argument; `none` when `strtok` runs out and `atoi`
gets a NULL. -/
def portcom : Nat → Bytes → Option (List Int)
  | 0, _ => some []
  | n + 1, s =>
    match strtok portDelims s with
    | none => none
    | some (token, rest) => (portcom n rest).map (atoi token :: ·)

def htons (n : UInt16) : UInt16 := (n <<< 8) ||| (n >>> 8)

def portAddr (h₀ h₁ h₂ h₃ : Int) : UInt32 :=
  (dwordOfInt h₃ <<< 24) ||| (dwordOfInt h₂ <<< 16) ||| (dwordOfInt h₁ <<< 8) ||| dwordOfInt h₀

def portNumber (p₀ p₁ : Int) : UInt16 := UInt16.ofInt (p₀ * 256 + p₁)

def dotted (h₀ h₁ h₂ h₃ : Int) : Bytes :=
  showInt h₀ ++ bytes "." ++ showInt h₁ ++ bytes "." ++ showInt h₂ ++ bytes "." ++ showInt h₃

def portConnected (conn : Conn) (port : UInt16) : Ftp (Conn × Int) := do
  doSendReply .sockfd conn.sockfd Reply.portSuccessful.text
  pure ({ conn with pasvActive := 1, pasvPort := port }, 0)

/-- PORT from the socket on; the address the client gave is tried first, then the
address of its control connection. -/
def portConnect (conn : Conn) (addr : UInt32) (port : UInt16) : Ftp (Conn × Int) := do
  let sock ← socket
  if sock = -1 then do
    doSendReply .sockfd conn.sockfd Reply.cannotOpen.text
    let _ ← close .pasvSockfd sock
    pure ({ conn with pasvSockfd := sock, pasvActive := 0 }, 0)
  else do
    let _ ← bindSocket sock (htons ftpDataPort)
    let first ← connect sock addr (htons port)
    if first = -1 then do
      let second ← connect sock conn.remote (htons port)
      if second = -1 then do
        doSendReply .sockfd conn.sockfd Reply.cannotOpen.text
        let _ ← close .pasvSockfd sock
        pure ({ conn with pasvSockfd := sock }, 0)
      else portConnected { conn with pasvSockfd := sock } port
    else portConnected { conn with pasvSockfd := sock } port

/-- Without an argument `strtok` goes on from the position it kept. -/
def portArgument : Option Bytes → Ftp Bytes
  | some s => pure s
  | none => do
    let saved ← strtokSaved
    deref saved

def portParsed (conn : Conn) (s : Bytes) : Ftp (Conn × Int) :=
  match portcom 6 s with
  | some [h₀, h₁, h₂, h₃, p₀, p₁] => do
    strcpy .spareBuf (dotted h₀ h₁ h₂ h₃)
    portConnect conn (portAddr h₀ h₁ h₂ h₃) (portNumber p₀ p₁)
  | _ => .fault .nullPointer

def cmdPort (conn : Conn) (parameter : Option Bytes) : Ftp (Conn × Int) := do
  let s ← portArgument parameter
  portParsed conn s

theorem portcom_length {n : Nat} {s : Bytes} {fields : List Int}
    (h : portcom n s = some fields) : fields.length = n := by
  induction n generalizing s fields with
  | zero =>
    have hnil : fields = [] := by simpa [portcom] using h.symm
    simp [hnil]
  | succ n ih =>
    unfold portcom at h
    split at h
    · cases h
    · obtain ⟨fields', hrest, rfl⟩ := Option.map_eq_some_iff.mp h
      simp [ih hrest]

theorem portcom_range {n : Nat} {s : Bytes} {fields : List Int}
    (h : portcom n s = some fields) : ∀ i ∈ fields, -2 ^ 31 ≤ i ∧ i < 2 ^ 31 := by
  induction n generalizing s fields with
  | zero =>
    have hnil : fields = [] := by simpa [portcom] using h.symm
    simp [hnil]
  | succ n ih =>
    unfold portcom at h
    split at h
    · cases h
    · rename_i token rest hs
      obtain ⟨fields', hrest, rfl⟩ := Option.map_eq_some_iff.mp h
      intro i hi
      rcases List.mem_cons.mp hi with rfl | hi
      · exact atoi_range token
      · exact ih hrest i hi

theorem dotted_length {h₀ h₁ h₂ h₃ : Int}
    (h : ∀ i ∈ [h₀, h₁, h₂, h₃], -2 ^ 31 ≤ i ∧ i < 2 ^ 31) :
    (dotted h₀ h₁ h₂ h₃).length < 256 := by
  have hshow : ∀ i ∈ [h₀, h₁, h₂, h₃], (showInt i).length ≤ 11 := by
    intro i hi
    have hrange := h i hi
    exact showInt_length_le (k := 10) (by omega) (by omega)
  have hdot : (bytes ".").length = 1 := by decide
  simp only [List.mem_cons, List.not_mem_nil, or_false, forall_eq_or_imp, forall_eq] at hshow
  simp only [dotted, List.length_append, hdot]
  omega

theorem always_portParsed {post : List CallEvent → Except Fault (Conn × Int) → Prop}
    (conn : Conn) (s : Bytes) :
    Always (portParsed conn s) post ↔
      (∀ h₀ h₁ h₂ h₃ p₀ p₁, portcom 6 s = some [h₀, h₁, h₂, h₃, p₀, p₁] →
        Always (portConnect conn (portAddr h₀ h₁ h₂ h₃) (portNumber p₀ p₁)) post) ∧
      (portcom 6 s = none → post [] (.error .nullPointer)) := by
  cases hs : portcom 6 s with
  | none => simp [portParsed, hs]
  | some fields =>
    obtain ⟨h₀, h₁, h₂, h₃, p₀, p₁, rfl⟩ :
        ∃ h₀ h₁ h₂ h₃ p₀ p₁, fields = [h₀, h₁, h₂, h₃, p₀, p₁] := by
      match fields, portcom_length hs with
      | [h₀, h₁, h₂, h₃, p₀, p₁], _ => exact ⟨h₀, h₁, h₂, h₃, p₀, p₁, rfl⟩
    have hfits : (dotted h₀ h₁ h₂ h₃).length < 256 :=
      dotted_length (fun i hi => portcom_range hs i (by simp at hi ⊢; tauto))
    have hnot : ¬256 ≤ (dotted h₀ h₁ h₂ h₃).length := by omega
    simp only [portParsed, hs, always_bind, always_strcpy, Buffer.size, hfits, hnot, then_ok,
      List.nil_append]
    constructor
    · rintro ⟨h, -⟩
      refine ⟨?_, by simp⟩
      rintro _ _ _ _ _ _ ⟨⟩
      exact h trivial
    · rintro ⟨h, -⟩
      exact ⟨fun _ => h _ _ _ _ _ _ rfl, by simp⟩

/-- What PORT does from the socket on, and where it reads a NULL, is what it does, unless the
position `strtok` kept matters. -/
theorem always_cmdPort {post : List CallEvent → Except Fault (Conn × Int) → Prop} (conn : Conn)
    (parameter : Option Bytes)
    (hsaved : ∀ saved t r, post t r → post (⟨.strtokSaved, saved⟩ :: t) r)
    (hnull : post [] (.error .nullPointer))
    (hconnect : ∀ addr port, Always (portConnect conn addr port) post) :
    Always (cmdPort conn parameter) post := by
  have hparsed : ∀ s, Always (portParsed conn s) post := by
    intro s
    rw [always_portParsed]
    exact ⟨fun _ _ _ _ _ _ _ => hconnect _ _, fun _ => hnull⟩
  cases parameter with
  | none =>
    simp only [cmdPort, portArgument, always_bind, always_call, then_ok]
    intro saved
    cases saved with
    | none =>
      rw [always_deref_none]
      exact hsaved none [] _ hnull
    | some s =>
      rw [always_deref_some]
      exact (hparsed s).mono (hsaved (some s))
  | some s =>
    simp only [cmdPort, portArgument, always_bind, always_pure, then_ok, List.nil_append]
    exact hparsed s

def cmdRest (conn : Conn) (parameter : Option Bytes) : Ftp (Conn × Int) := do
  let s ← deref parameter
  if 0 ≤ atoi s then do
    doSendReply .sockfd conn.sockfd Reply.sendTransfer.text
    pure ({ conn with offset := dwordOfInt (atoi s) }, 0)
  else pure (conn, 0)

/-- MKD, DELE and RMD: one FatFs call on the resolved path, and a reply by its result. -/
def cmdOnPath (op : Bytes → Ftp FResult) (done failed : Bytes → Reply) (conn : Conn)
    (parameter : Option Bytes) : Ftp (Conn × Int) := do
  let (conn, path) ← doFullPath conn parameter
  let rc ← op path
  if rc = .ok then do
    doSendReply .sockfd conn.sockfd (done path).text
    pure (conn, 0)
  else do
    doSendReply .sockfd conn.sockfd (failed path).text
    pure (conn, 0)

def cmdMkd (conn : Conn) (parameter : Option Bytes) : Ftp (Conn × Int) :=
  cmdOnPath fMkdir Reply.dirCreated Reply.fileExists conn parameter

def cmdDele (conn : Conn) (parameter : Option Bytes) : Ftp (Conn × Int) :=
  cmdOnPath fUnlink Reply.fileDeleted Reply.noSuchFile conn parameter

def cmdRmd (conn : Conn) (parameter : Option Bytes) : Ftp (Conn × Int) :=
  cmdOnPath fUnlink Reply.dirDeleted Reply.noSuchDir conn parameter

/-- After the `do ... while (0)` of PASV: any error closes `pasv_sockfd`. -/
def pasvEnd (conn : Conn) (ret : Int) : Ftp (Conn × Int) :=
  if ret ≠ 0 then do
    let _ ← close .pasvSockfd conn.pasvSockfd
    pure ({ conn with pasvActive := 0 }, 0)
  else pure (conn, 0)

def pasvAccept (conn : Conn) (sockfd : Int) (ret : Int) : Ftp (Conn × Int) := do
  let data ← accept sockfd
  if data.sock < 0 then do
    doSendReply .sockfd conn.sockfd Reply.cannotOpen.text
    pasvEnd { conn with pasvSockfd := data.sock } 5
  else do
    let _ ← close .localSockfd sockfd
    pasvEnd { conn with pasvSockfd := data.sock, pasvActive := 1 } ret

/-- PASV from `listen` on; a failed `bind` has set `ret` to 3 and is not left early. -/
def pasvListen (conn : Conn) (sockfd : Int) (ret : Int) : Ftp (Conn × Int) := do
  let listening ← listen sockfd 1
  if listening = -1 then do
    doSendReply .sockfd conn.sockfd Reply.cannotOpen.text
    pasvEnd conn 4
  else do
    let addr ← myIpaddr
    doSendReply .sockfd conn.sockfd (Reply.enteringPassive addr conn.pasvPort).text
    let ready ← select .localSockfd sockfd
    if ready.isset then pasvAccept conn sockfd ret
    else pasvEnd conn 6

def pasvBind (conn : Conn) (sockfd : Int) : Ftp (Conn × Int) := do
  let bound ← bindSocket sockfd (htons conn.pasvPort)
  if bound = -1 then do
    doSendReply .sockfd conn.sockfd Reply.cannotOpen.text
    pasvListen conn sockfd 3
  else pasvListen conn sockfd 0

def pasvSocket (conn : Conn) : Ftp (Conn × Int) := do
  let sockfd ← socket
  if sockfd = -1 then do
    doSendReply .sockfd conn.sockfd Reply.cannotOpen.text
    pasvEnd conn 1
  else pasvBind conn sockfd

def cmdPasv (conn : Conn) : Ftp (Conn × Int) :=
  pasvSocket { conn with pasvPort := ftpPassvPort, pasvActive := 1 }

def cmdFeat (conn : Conn) : Ftp (Conn × Int) := do
  doSendReply .sockfd conn.sockfd Reply.noFeatures.text
  pure (conn, 0)

def cmdQuit (conn : Conn) : Ftp (Conn × Int) := do
  doSendReply .sockfd conn.sockfd Reply.adios.text
  pure (conn, -1)

def cmdUnknown (conn : Conn) : Ftp (Conn × Int) := do
  doSendReply .sockfd conn.sockfd Reply.notImplemented.text
  pure (conn, 0)

/-- The switch; `buf` is the stripped buffer. -/
def dispatch (fuel : Nat) (conn : Conn) (buf : Bytes) (cmd : Cmd) (parameter : Option Bytes) :
    Ftp (Conn × Int) :=
  match cmd with
  | .user => cmdUser conn parameter
  | .pass => cmdPass conn
  | .list => cmdList fuel conn
  | .nlst => cmdNlst fuel conn
  | .type => cmdType conn parameter
  | .retr => cmdRetr fuel conn buf parameter
  | .stor => cmdStor fuel conn parameter
  | .size => cmdSize conn parameter
  | .mdtm => cmdMdtm conn
  | .syst => cmdSyst conn
  | .pwd => cmdPwd conn
  | .cwd => cmdCwd conn parameter
  | .cdup => cmdCdup conn
  | .port => cmdPort conn parameter
  | .rest => cmdRest conn parameter
  | .mkd => cmdMkd conn parameter
  | .dele => cmdDele conn parameter
  | .rmd => cmdRmd conn parameter
  | .pasv => cmdPasv conn
  | .feat => cmdFeat conn
  | .quit => cmdQuit conn
  | .uknwn => cmdUnknown conn

def parseRequest (buf : Bytes) : Cmd × Option Bytes :=
  (doParseCommand (cstr (stripLineEnds buf)), parameterPtr (stripLineEnds buf))

def ftpProcessRequest (fuel : Nat) (conn : Conn) (buf : Bytes) : Ftp (Conn × Int) := do
  let sbuf ← malloc
  if sbuf = true then
    dispatch fuel conn (stripLineEnds buf) (parseRequest buf).1 (parseRequest buf).2
  else pure (conn, -1)

/-- What `ftpd_thread` does with what `recv` put into `ftp_buf`: the terminator is stored
behind it, in front of the bytes of earlier requests. -/
def serveReceived (fuel : Nat) (conn : Conn) (received stale : Bytes) : Ftp (Conn × Int) := do
  strcpy .ftpBuf received
  ftpProcessRequest fuel conn (received ++ 0 :: stale)

section Rules
variable {post : List CallEvent → Except Fault (Conn × Int) → Prop} (fuel : Nat) (conn : Conn)

theorem always_ftpProcessRequest (buf : Bytes) :
    Always (ftpProcessRequest fuel conn buf) post ↔
      Always (dispatch fuel conn (stripLineEnds buf) (parseRequest buf).1 (parseRequest buf).2)
        (fun t r => post (⟨.malloc, true⟩ :: t) r) ∧
      post [⟨.malloc, false⟩] (.ok (conn, -1)) := by
  simp [ftpProcessRequest, and_comm]

theorem always_serveReceived (received stale : Bytes) :
    Always (serveReceived fuel conn received stale) post ↔
      (received.length < ftpBufferSize →
        Always (ftpProcessRequest fuel conn (received ++ 0 :: stale)) post) ∧
      (ftpBufferSize ≤ received.length → post [] (.error (.overflow .ftpBuf))) := by
  simp [serveReceived, Buffer.size, ftpBufferSize]

end Rules

end FtpServer
