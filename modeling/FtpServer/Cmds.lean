import FtpServer.Texts

/-! The command helpers of `cmds.c`. -/

namespace FtpServer
open Interaction CString

def slash : Byte := byte '/'
def dot : Byte := byte '.'

def months : List Bytes :=
  ["Jan", "Feb", "Mar", "Apr", "May", "Jun", "Jul", "Aug", "Sep", "Oct", "Nov", "Dec", "Ukn"].map
    bytes

def strBeginWith : Bytes → Bytes → Bool
  | _, [] => true
  | [], _ :: _ => false
  | b :: src, m :: mtch => if m ≠ b then false else strBeginWith src mtch

/-- The text is what the format and its arguments denote; `vsnprintf` returns its
length, and nothing is sent when that is 0. -/
def doSendReply (via : Operand) (sock : Int) (text : Bytes) : Ftp Unit :=
  if 0 < text.length then do
    let _ ← call (Call.reply via sock text)
    pure ()
  else pure ()

@[simp] theorem always_doSendReply {post : List CallEvent → Except Fault Unit → Prop}
    {via : Operand} {sock : Int} {text : Bytes} (h : text ≠ []) :
    Always (doSendReply via sock text) post ↔
      ∀ k : Int, post [⟨.reply via sock text, k⟩] (.ok ()) := by
  have hlen : 0 < text.length := List.length_pos_iff.mpr h
  simp [doSendReply, hlen]

def intOfDword (n : UInt32) : Int := n.toBitVec.toInt

theorem intOfDword_eq (n : UInt32) :
    intOfDword n = if 2 * n.toNat < 2 ^ 32 then (n.toNat : Int) else n.toNat - 2 ^ 32 := by
  rw [intOfDword, BitVec.toInt_eq_toNat_cond]
  rfl

def dwordOfInt (i : Int) : UInt32 := UInt32.ofInt i

theorem dwordOfInt_intOfDword (n : UInt32) : dwordOfInt (intOfDword n) = n := by
  have hn := n.toNat_lt
  have hint := intOfDword_eq n
  apply UInt32.toNat_inj.mp
  rw [dwordOfInt, UInt32.ofInt, UInt32.toNat_ofNat']
  split at hint <;> omega

/-- Day, month index and year, the month computed in a `u16`. -/
def listDate (fdate : UInt16) : Nat × Nat × Nat :=
  let day := fdate &&& 0x1f
  let mon := ((fdate >>> 5) &&& 0x0f) - 1
  let year := ((fdate >>> 9) &&& 0x3f) + 1980
  if mon > 12 then (day.toNat, 0, 2000) else (day.toNat, mon.toNat, year.toNat)

/-- One line of `LIST`; the size goes through `%9d`. -/
def listLine (fno : FilInfo) : Bytes :=
  let (day, mon, year) := listDate fno.fdate
  let date := padLeft 3 (months.getD mon []) ++ bytes " " ++ padLeft 2 (showNat day) ++
    bytes " " ++ padLeft 4 (showNat year)
  if fno.fattrib &&& amDir ≠ 0 then
    bytes "drw-r--r-- 1 root root " ++ padLeft 9 (showInt 0) ++ bytes " " ++ date ++ bytes " " ++
      fno.fname ++ bytes "\r\n"
  else
    bytes "-rw-r--r-- 1 root root " ++ padLeft 9 (showInt (intOfDword fno.fsize)) ++ bytes " " ++
      date ++ bytes " " ++ fno.fname ++ bytes "\r\n"

def nameLine (fno : FilInfo) : Bytes := fno.fname ++ bytes "\r\n"

/-- Send a line for each entry until an error or the empty name that ends the
directory; `res` is what the caller gets. -/
def listLoop (line : FilInfo → Bytes) (via : Operand) (sock : Int) : Nat → Int → Ftp Int
  | 0, _ => .stuck
  | fuel + 1, res => do
    let (rc, fno) ← fReaddir
    if rc ≠ .ok ∨ fno.fname = [] then pure res
    else do
      doSendReply via sock (line fno)
      listLoop line via sock fuel 0

def listTrace (line : FilInfo → Bytes) (via : Operand) (sock : Int) :
    List (FilInfo × Int) → FResult × FilInfo → List CallEvent
  | [], last => [⟨.fReaddir, last⟩]
  | entry :: entries, last =>
    ⟨.fReaddir, (.ok, entry.1)⟩ :: ⟨.reply via sock (line entry.1), entry.2⟩ ::
      listTrace line via sock entries last

theorem forall_mem_listTrace {p : CallEvent → Prop} (line : FilInfo → Bytes) (via : Operand)
    (sock : Int) (entries : List (FilInfo × Int)) (last : FResult × FilInfo) :
    (∀ e ∈ listTrace line via sock entries last, p e) ↔
      (∀ entry ∈ entries, p ⟨.fReaddir, (.ok, entry.1)⟩ ∧
        p ⟨.reply via sock (line entry.1), entry.2⟩) ∧ p ⟨.fReaddir, last⟩ := by
  induction entries with
  | nil => simp [listTrace]
  | cons entry entries ih =>
    rw [listTrace, List.forall_mem_cons, List.forall_mem_cons, List.forall_mem_cons, ih]
    tauto

def EndsListing (last : FResult × FilInfo) : Prop := last.1 ≠ .ok ∨ last.2.fname = []

def Named (entries : List (FilInfo × Int)) : Prop := ∀ entry ∈ entries, entry.1.fname ≠ []

@[simp] theorem listLine_ne_nil (fno : FilInfo) : listLine fno ≠ [] := by
  unfold listLine
  dsimp only
  split <;> simp

@[simp] theorem nameLine_ne_nil (fno : FilInfo) : nameLine fno ≠ [] := by
  simp [nameLine]

@[simp] theorem always_listLoop {post : List CallEvent → Except Fault Int → Prop}
    {line : FilInfo → Bytes} (hline : ∀ fno, line fno ≠ []) (via : Operand) (sock : Int)
    (fuel : Nat) (res : Int) :
    Always (listLoop line via sock fuel res) post ↔
      ∀ entries last, entries.length < fuel → Named entries → EndsListing last →
        post (listTrace line via sock entries last) (.ok (if entries = [] then res else 0)) := by
  induction fuel generalizing res post with
  | zero => simp [listLoop]
  | succ fuel ih =>
    simp only [listLoop, always_bind, always_call, then_ok, always_ite, always_pure,
      always_doSendReply (hline _), ih]
    constructor
    · rintro h (_ | ⟨entry, entries⟩) last hlen hnamed hlast
      · exact (h last).1 hlast
      · have hname : entry.1.fname ≠ [] := hnamed entry (by simp)
        have hrest := (h (.ok, entry.1)).2 (by simpa using hname) entry.2 entries last
          (by simpa using hlen) (fun e he => hnamed e (by simp [he])) hlast
        simpa [listTrace] using hrest
    · rintro h ⟨rc, fno⟩
      refine ⟨fun hlast => h [] (rc, fno) (by simp) (by simp [Named]) hlast, ?_⟩
      intro hgo k entries last hlen hnamed hlast
      obtain ⟨hrc, hname⟩ : rc = .ok ∧ fno.fname ≠ [] := by simpa using hgo
      have hrest := h ((fno, k) :: entries) last (by simpa using hlen)
        (by simpa [Named, hname] using hnamed) hlast
      simpa [listTrace, hrc] using hrest

/-- A trailing slash is cut off the caller's string, which is returned as well. -/
def doFullList (fuel : Nat) (name : Bytes) (via : Operand) (sock : Int) : Ftp (Bytes × Int) := do
  let name := if 1 < name.length ∧ name.getLast? = some slash then name.dropLast else name
  let rc ← fOpendir name
  if rc ≠ .ok then do
    doSendReply via sock Reply.listFailed.text
    pure (name, -1)
  else do
    let res ← listLoop listLine via sock fuel (-1)
    pure (name, res)

def doSimpleList (fuel : Nat) (name : Bytes) (via : Operand) (sock : Int) : Ftp Int := do
  let rc ← fOpendir name
  if rc ≠ .ok then do
    doSendReply via sock Reply.simpleListFailed.text
    pure (-1)
  else listLoop nameLine via sock fuel 0

def doGetFilesize (filename : Bytes) : Ftp Int := do
  let rc ← fOpen filename faRead
  if rc = .ok then do
    let size ← fSize
    let _ ← fClose
    pure (intOfDword size)
  else pure (-1)

@[simp] theorem always_doGetFilesize {post : List CallEvent → Except Fault Int → Prop}
    (filename : Bytes) :
    Always (doGetFilesize filename) post ↔
      (∀ (size : UInt32) (rc : FResult), post
        [⟨.fOpen filename faRead, FResult.ok⟩, ⟨.fSize, size⟩, ⟨.fClose, rc⟩]
        (.ok (intOfDword size))) ∧
      (∀ rc : FResult, rc ≠ .ok → post [⟨.fOpen filename faRead, rc⟩] (.ok (-1))) := by
  simp only [doGetFilesize, always_bind, always_call, then_ok, always_ite, always_pure]
  constructor
  · intro h
    exact ⟨(h .ok).1 rfl, fun rc => (h rc).2⟩
  · rintro ⟨hopen, hfail⟩ rc
    refine ⟨?_, hfail rc⟩
    rintro rfl
    exact hopen

/-- The keywords in the order they are tried. -/
def keywords : List (Bytes × Cmd) :=
  [(bytes "USER", .user), (bytes "PASS", .pass), (bytes "LIST", .list), (bytes "NLST", .nlst),
   (bytes "PWD", .pwd), (bytes "XPWD", .pwd), (bytes "TYPE", .type), (bytes "PASV", .pasv),
   (bytes "RETR", .retr), (bytes "STOR", .stor), (bytes "SIZE", .size), (bytes "MDTM", .mdtm),
   (bytes "SYST", .syst), (bytes "CWD", .cwd), (bytes "CDUP", .cdup), (bytes "PORT", .port),
   (bytes "REST", .rest), (bytes "MKD", .mkd), (bytes "DELE", .dele), (bytes "RMD", .rmd),
   (bytes "FEAT", .feat), (bytes "QUIT", .quit)]

def doParseCommand (buf : Bytes) : Cmd :=
  match keywords.find? (fun entry => strBeginWith buf entry.1) with
  | some entry => entry.2
  | none => .uknwn

/-- The loop of `do_step_down`: the last index from `i` down to 1 that holds a slash. -/
def lastSlash (path : Bytes) : Nat → Option Nat
  | 0 => none
  | i + 1 => if path[i + 1]? = some slash then some (i + 1) else lastSlash path i

def doStepDown (path : Bytes) : Bytes :=
  match lastSlash path (path.length - 1) with
  | some i => path.take i
  | none => [slash]

/-- `currentdir` after `do_full_path`, and the path it builds. -/
def fullPath (currentdir path : Bytes) : Bytes × Bytes :=
  if path[0]? = some slash then (currentdir, path)
  else if currentdir = bytes "/" then (currentdir, path)
  else if path[0]? = some dot ∧ path[1]? = some dot then
    (doStepDown currentdir, doStepDown currentdir)
  else (currentdir, currentdir ++ slash :: path)

/-- The `size` argument is never read; the destination is `spare_buf`. -/
def doFullPath (conn : Conn) (path : Option Bytes) : Ftp (Conn × Bytes) := do
  let path ← deref path
  let (currentdir, newPath) := fullPath conn.currentdir path
  strcpy .spareBuf newPath
  pure ({ conn with currentdir := currentdir }, newPath)

section Rules
variable {post : List CallEvent → Except Fault (Conn × Bytes) → Prop} (conn : Conn)

@[simp] theorem always_doFullPath_none :
    Always (doFullPath conn none) post ↔ post [] (.error .nullPointer) := by
  simp [doFullPath]

@[simp] theorem always_doFullPath_some (path : Bytes) :
    Always (doFullPath conn (some path)) post ↔
      ((fullPath conn.currentdir path).2.length < 256 →
        post [] (.ok ({ conn with currentdir := (fullPath conn.currentdir path).1 },
          (fullPath conn.currentdir path).2))) ∧
      (256 ≤ (fullPath conn.currentdir path).2.length →
        post [] (.error (.overflow .spareBuf))) := by
  simp [doFullPath, Buffer.size]

end Rules

end FtpServer
