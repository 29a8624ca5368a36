import FtpServer.Disk
import FtpServer.Sessions

/-! What RETR transmits and what STOR leaves behind when no call fails. -/

namespace FtpServer
open Interaction CString Overlay Transition

@[simp] def handedBytes (e : CallEvent) : Bytes :=
  match e.call with
  | .send _ _ data => data
  | _ => []

def sentBytes (t : List CallEvent) : Bytes := t.flatMap handedBytes

@[simp] theorem sentBytes_nil : sentBytes [] = [] := rfl

@[simp] theorem sentBytes_cons (e : CallEvent) (t : List CallEvent) :
    sentBytes (e :: t) = handedBytes e ++ sentBytes t := rfl

@[simp] theorem sentBytes_append (t t' : List CallEvent) :
    sentBytes (t ++ t') = sentBytes t ++ sentBytes t' := List.flatMap_append

@[simp] def replyOf (e : CallEvent) : Option (Int × Bytes) :=
  match e.call with
  | .reply _ sock text => some (sock, text)
  | _ => none

def repliesIn (t : List CallEvent) : List (Int × Bytes) := t.flatMap fun e => (replyOf e).toList

@[simp] theorem repliesIn_nil : repliesIn [] = [] := rfl

@[simp] theorem repliesIn_cons (e : CallEvent) (t : List CallEvent) :
    repliesIn (e :: t) = (replyOf e).toList ++ repliesIn t := rfl

@[simp] theorem repliesIn_append (t t' : List CallEvent) :
    repliesIn (t ++ t') = repliesIn t ++ repliesIn t' := List.flatMap_append

section Calls
variable {disk : Disk}

theorem total_reply {via : Operand} {sock : Int} {text : Bytes} (h : text ≠ [])
    {post : Disk → List CallEvent → Except Fault Unit → Prop} :
    Total smoothStep (doSendReply via sock text) disk post ↔
      ∀ sent : Int, sent ≤ text.length → post disk [⟨.reply via sock text, sent⟩] (.ok ()) := by
  have hlen : 0 < text.length := List.length_pos_iff.mpr h
  have hsome : ∃ sent : Int, sent ≤ text.length := ⟨0, by omega⟩
  simp [doSendReply, hlen, smoothStep, diskStep, Smooth, Disk.answers, hsome]

theorem total_strcpy (buffer : Buffer) (s : Bytes)
    {post : Disk → List CallEvent → Except Fault Unit → Prop} :
    Total smoothStep (strcpy buffer s) disk post ↔
      (s.length < buffer.size → post disk [] (.ok ())) ∧
      (buffer.size ≤ s.length → post disk [] (.error (.overflow buffer))) := by
  simp [strcpy]

theorem total_doFullPath (conn : Conn) (path : Bytes)
    {post : Disk → List CallEvent → Except Fault (Conn × Bytes) → Prop} :
    Total smoothStep (doFullPath conn (some path)) disk post ↔
      ((fullPath conn.currentdir path).2.length < 256 →
        post disk [] (.ok ({ conn with currentdir := (fullPath conn.currentdir path).1 },
          (fullPath conn.currentdir path).2))) ∧
      (256 ≤ (fullPath conn.currentdir path).2.length →
        post disk [] (.error (.overflow .spareBuf))) := by
  simp [doFullPath, deref, total_strcpy, Buffer.size]

theorem total_send {via : Operand} {sock : Int} {data : Bytes}
    {post : Disk → List CallEvent → Except Fault Int → Prop} :
    Total smoothStep (send via sock data) disk post ↔
      ∀ sent : Int, sent ≤ data.length → post disk [⟨.send via sock data, sent⟩] (.ok sent) := by
  have hsome : ∃ sent : Int, sent ≤ data.length := ⟨0, by omega⟩
  simp [smoothStep, diskStep, Smooth, Disk.answers, hsome]

theorem total_closeSocket {via : Operand} {sock : Int}
    {post : Disk → List CallEvent → Except Fault Int → Prop} :
    Total smoothStep (close via sock) disk post ↔
      ∀ k : Int, post disk [⟨.close via sock, k⟩] (.ok k) := by
  simp [smoothStep, diskStep, Smooth, Disk.answers]

theorem total_fClose {post : Disk → List CallEvent → Except Fault FResult → Prop} :
    Total smoothStep fClose disk post ↔
      post (disk.hold none) [⟨.fClose, FResult.ok⟩] (.ok .ok) :=
  total_call_unique smooth_close

theorem total_doGetFilesize {path content : Bytes} (hfile : disk.files path = some content)
    {post : Disk → List CallEvent → Except Fault Int → Prop} :
    Total smoothStep (doGetFilesize path) disk post ↔
      post (disk.hold none) [⟨.fOpen path faRead, FResult.ok⟩,
        ⟨.fSize, UInt32.ofNat content.length⟩, ⟨.fClose, FResult.ok⟩]
        (.ok (intOfDword (UInt32.ofNat content.length))) := by
  have hopen : (disk.hold (some ⟨path, 0, false⟩)).Open ⟨path, 0, false⟩ content := ⟨rfl, hfile⟩
  unfold doGetFilesize
  rw [total_bind, total_call_unique (smooth_open (by simp [hfile]) faRead), next_ok, if_pos rfl,
    total_bind, total_call_unique (smooth_size hopen), next_ok, total_bind, total_fClose, next_ok,
    total_pure]
  rfl

theorem total_retrLoop {file : OpenFile} {content : Bytes} {fuel : Nat} (sock : Int)
    (hopen : disk.Open file content) (herr : file.err = false)
    (hfuel : (content.drop file.fptr).length < fuel) :
    Total smoothStep (retrLoop sock fuel) disk (fun u t r =>
      u.files = disk.files ∧ sentBytes t = content.drop file.fptr ∧ r = .ok ()) := by
  induction fuel generalizing disk file with
  | zero => omega
  | succ fuel ih =>
    unfold retrLoop
    rw [total_bind, total_call_unique (smooth_read hopen herr ftpBufferSize), next_ok]
    by_cases hrest : content.drop file.fptr = []
    · simp [hrest, Disk.hold]
    · have hpos : 0 < (content.drop file.fptr).length := List.length_pos_iff.mpr hrest
      have hblock : 0 < ((content.drop file.fptr).take ftpBufferSize).length := by
        rw [List.length_take, ftpBufferSize]
        omega
      simp only [hblock, if_true, total_bind, total_send, next_ok]
      intro sent _
      set block := (content.drop file.fptr).take ftpBufferSize with hdef
      have hnext : content.drop (file.fptr + block.length) =
          (content.drop file.fptr).drop block.length := by
        rw [List.drop_drop]
      have hshorter : (content.drop (file.fptr + block.length)).length < fuel := by
        rw [hnext, List.length_drop]
        omega
      have hopen' : (disk.hold (some { file with fptr := file.fptr + block.length })).Open
          { file with fptr := file.fptr + block.length } content := ⟨rfl, hopen.2⟩
      refine (ih hopen' herr hshorter).mono ?_
      intro u t r hdone
      refine ⟨hdone.1, ?_, hdone.2.2⟩
      simp only [sentBytes_append, sentBytes_cons, sentBytes_nil, handedBytes, List.append_nil,
        List.nil_append, hdone.2.1, hnext]
      exact List.prefix_iff_eq_append.mp (List.take_prefix ftpBufferSize _)

end Calls

theorem intOfDword_eq_neg_one {n : Nat} (h : n < 2 ^ 32) :
    intOfDword (UInt32.ofNat n) = -1 ↔ n = 2 ^ 32 - 1 := by
  have hint := intOfDword_eq (UInt32.ofNat n)
  rw [UInt32.toNat_ofNat', Nat.mod_eq_of_lt h] at hint
  split at hint <;> omega

def startPosition (offset : UInt32) (content : Bytes) : Nat :=
  if 0 < offset.toNat ∧ offset.toNat < content.length then offset.toNat else 0

/-- What RETR transmits of a file; the size of a file of 4 GiB less one byte reads as -1. -/
def transmitted (offset : UInt32) (content : Bytes) : Bytes :=
  if content.length = 2 ^ 32 - 1 then [] else content.drop (startPosition offset content)

theorem restarts_iff (offset : UInt32) {n : Nat} (h : n < 2 ^ 32) :
    restarts offset (intOfDword (UInt32.ofNat n)) ↔ 0 < offset.toNat ∧ offset.toNat < n := by
  rw [restarts, dwordOfInt_intOfDword, UInt32.lt_iff_toNat_lt, UInt32.lt_iff_toNat_lt,
    UInt32.toNat_ofNat', Nat.mod_eq_of_lt h]
  rfl

theorem total_retrSeek {disk : Disk} {content : Bytes} (conn : Conn) (path : Bytes)
    (hlen : content.length ≠ 2 ^ 32 - 1) (hopen : disk.Open ⟨path, 0, false⟩ content) :
    Total smoothStep (retrSeek conn path (intOfDword (UInt32.ofNat content.length))) disk
      (fun u t r => r = .ok () ∧ u.files = disk.files ∧ sentBytes t = [] ∧
        ∃ file, u.Open file content ∧ file.err = false ∧
          content.drop file.fptr = transmitted conn.offset content) := by
  have hsmall := disk.small path content hopen.2
  have hrestarts := restarts_iff conn.offset hsmall
  unfold retrSeek
  split
  · rename_i hrestart
    have hin := hrestarts.mp hrestart
    have hptr : min conn.offset.toNat content.length = conn.offset.toNat := by omega
    rw [total_bind, total_call_unique (smooth_lseek hopen rfl conn.offset), next_ok,
      total_reply (Reply.text_ne_nil _)]
    intro sent _
    refine ⟨rfl, rfl, rfl, _, ⟨rfl, hopen.2⟩, rfl, ?_⟩
    rw [transmitted, startPosition, if_neg hlen, if_pos hin]
    simp only [hptr]
  · rename_i hwhole
    have hout := hwhole ∘ hrestarts.mpr
    rw [total_reply (Reply.text_ne_nil _)]
    intro sent _
    refine ⟨rfl, rfl, rfl, _, hopen, rfl, ?_⟩
    rw [transmitted, startPosition, if_neg hlen, if_neg hout]

theorem total_cmdRetr {disk : Disk} {fuel : Nat} {conn : Conn} {buf arg content : Bytes}
    (hcopy : (cstr (buf.drop 5)).length < 256)
    (hpath : (fullPath conn.currentdir arg).2.length < 256)
    (hfile : disk.files (fullPath conn.currentdir arg).2 = some content)
    (hfuel : content.length < fuel) :
    Total smoothStep (cmdRetr fuel conn buf (some arg)) disk (fun u t r =>
      u.files = disk.files ∧ sentBytes t = transmitted conn.offset content ∧
        ∃ conn', r = .ok (conn', 0)) := by
  have hsmall := disk.small _ content hfile
  have hnone : disk.files (fullPath conn.currentdir arg).2 ≠ none := by simp [hfile]
  unfold cmdRetr
  simp only [doFullPath, deref, strcpy, Buffer.size, hcopy, hpath, if_true, total_bind, total_pure,
    next_ok, total_doGetFilesize hfile, intOfDword_eq_neg_one hsmall, total_ite]
  constructor
  · intro hlen
    simp [total_reply, transmitted, hlen, Disk.hold]
  · intro hlen
    have hopen : ((disk.hold none).hold (some ⟨(fullPath conn.currentdir arg).2, 0, false⟩)).Open
        ⟨(fullPath conn.currentdir arg).2, 0, false⟩ content := ⟨rfl, hfile⟩
    have hagain := @smooth_open (disk.hold none) _ hnone faRead
    rw [total_call_unique hagain, next_ok, if_neg (by simp), total_bind]
    refine (total_retrSeek { conn with currentdir := (fullPath conn.currentdir arg).1 }
      (fullPath conn.currentdir arg).2 hlen hopen).mono ?_
    rintro u t r ⟨rfl, hfiles, hquiet, file, hopen', herr, hrest⟩
    have hshort : (content.drop file.fptr).length < fuel := by
      rw [List.length_drop]
      omega
    rw [next_ok, total_bind]
    refine (total_retrLoop conn.pasvSockfd hopen' herr hshort).mono ?_
    rintro v s r ⟨hkept, hsent, rfl⟩
    simp only [next_ok, total_bind, total_reply (Reply.text_ne_nil _), total_fClose,
      total_closeSocket, total_pure]
    intro sent _ k
    refine ⟨hkept.trans hfiles, ?_, _, rfl⟩
    simp [hquiet, hsent, hrest]

/-- What RETR copies fits `spare_buf`: the text behind its verb, and the path. -/
def RetrFits (conn : Conn) (buf arg : Bytes) : Prop :=
  (cstr ((stripLineEnds buf).drop 5)).length < 256 ∧ (fullPath conn.currentdir arg).2.length < 256

/-- When no call fails, the request is served to its end and hands these bytes to `send`. -/
def Transmits (disk : Disk) (conn : Conn) (buf sent : Bytes) : Prop :=
  ∃ bound, ∀ fuel, bound ≤ fuel → Total smoothStep (ftpProcessRequest fuel conn buf) disk
    (fun _ t r => sentBytes t = sent ∧ ∃ conn', r = .ok (conn', 0))

theorem total_ftpProcessRequest {disk : Disk} {fuel : Nat} {conn : Conn} {buf : Bytes}
    {post : Disk → List CallEvent → Except Fault (Conn × Int) → Prop} :
    Total smoothStep (ftpProcessRequest fuel conn buf) disk post ↔
      Total smoothStep (dispatch fuel conn (stripLineEnds buf) (parseRequest buf).1
        (parseRequest buf).2) disk (fun u t r => post u (⟨.malloc, true⟩ :: t) r) := by
  have hmalloc : ∀ (b : Bool) (v : Disk),
      smoothStep disk ⟨.malloc, b⟩ v ↔ b = true ∧ v = disk := by
    intro b v
    simp [smoothStep, diskStep, Smooth, Disk.answers]
  rw [ftpProcessRequest, total_bind, total_call_unique hmalloc, next_ok, if_pos rfl]
  rfl

/-- RETR of a file that exists. -/
theorem transmits_iff {disk : Disk} {conn : Conn} {buf arg content : Bytes}
    (hretr : parseRequest buf = (.retr, some arg))
    (hfile : disk.files (fullPath conn.currentdir arg).2 = some content) (sent : Bytes) :
    Transmits disk conn buf sent ↔
      RetrFits conn buf arg ∧ transmitted conn.offset content = sent := by
  unfold Transmits
  simp only [total_ftpProcessRequest, hretr, dispatch]
  constructor
  · rintro ⟨bound, hall⟩
    have hdone := hall (bound + content.length + 1) (by omega)
    by_cases hfits : RetrFits conn buf arg
    · obtain ⟨t, r, u, hruns, hf, hsent, -⟩ := hdone.exists_run
      have hmine := (total_cmdRetr hfits.1 hfits.2 hfile (by omega)).runs hruns hf
      exact ⟨hfits, hmine.2.1.symm.trans hsent⟩
    · rw [cmdRetr, total_bind, total_strcpy] at hdone
      simp only [next_ok, next_error, total_bind, total_doFullPath, reduceCtorEq, exists_false,
        and_false, imp_false, not_le] at hdone
      exact absurd ⟨hdone.2, (hdone.1 hdone.2).2⟩ hfits
  · rintro ⟨hfits, rfl⟩
    refine ⟨content.length + 1, ?_⟩
    intro fuel hfuel
    refine (total_cmdRetr hfits.1 hfits.2 hfile (by omega)).mono ?_
    intro u t r hdone
    exact ⟨hdone.2.1, hdone.2.2⟩

end FtpServer
