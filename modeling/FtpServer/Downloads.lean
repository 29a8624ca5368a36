import FtpServer.Restart

/-! RETR where only `f_open`, `f_lseek` and `f_read` are known to succeed: the blocks it
hands to `send`. What `send` takes of them and what `f_close` answers stays open. -/

namespace FtpServer
open Interaction CString Transition

def Delivers : (c : Call) → c.Answer → Prop
  | .fOpen _ _, rc | .fLseek _, rc => rc = .ok
  | .fRead _, (rc, _) => rc = .ok
  | _, _ => True

def deliverStep (disk : Disk) (e : CallEvent) (disk' : Disk) : Prop :=
  Delivers e.call e.answer ∧ diskStep disk e disk'

def Delivering : Call → Prop
  | .fOpen _ _ | .fSize | .fRead _ | .fLseek _ | .send _ _ _ | .reply _ _ _ | .close _ _ => True
  | _ => False

theorem deliverStep_iff_smoothStep (q : Call) (h : Delivering q) (disk : Disk) (a : q.Answer)
    (u : Disk) : deliverStep disk ⟨q, a⟩ u ↔ smoothStep disk ⟨q, a⟩ u := by
  cases q <;> first | exact h.elim | exact Iff.rfl

section Calls
variable {disk : Disk} {conn : Conn}

theorem makes_doSendReply (via : Operand) (sock : Int) (text : Bytes) :
    Makes Delivering (doSendReply via sock text) := by
  unfold doSendReply
  split
  · exact Makes.bind ((makes_call _).mpr trivial) (fun _ => makes_pure _)
  · exact makes_pure _

theorem makes_retrSeek (conn : Conn) (path : Bytes) (numBytes : Int) :
    Makes Delivering (retrSeek conn path numBytes) := by
  unfold retrSeek
  split
  · exact Makes.bind ((makes_call _).mpr trivial) (fun _ => makes_doSendReply _ _ _)
  · exact makes_doSendReply _ _ _

theorem makes_retrLoop (sock : Int) (fuel : Nat) : Makes Delivering (retrLoop sock fuel) := by
  induction fuel with
  | zero => exact trivial
  | succ fuel ih =>
    refine Makes.bind ((makes_call _).mpr trivial) (fun answer => ?_)
    dsimp only
    split
    · exact Makes.bind ((makes_call _).mpr trivial) (fun _ => ih)
    · exact makes_pure _

theorem deliver_reply {via : Operand} {sock : Int} {text : Bytes} (h : text ≠ [])
    {post : Disk → List CallEvent → Except Fault Unit → Prop}
    (hpost : ∀ sent : Int, post disk [⟨.reply via sock text, sent⟩] (.ok ())) :
    Total deliverStep (doSendReply via sock text) disk post :=
  Total.congr deliverStep_iff_smoothStep (makes_doSendReply via sock text)
    ((total_reply h).mpr fun sent _ => hpost sent)

theorem deliver_fClose {post : Disk → List CallEvent → Except Fault FResult → Prop} :
    Total deliverStep fClose disk post ↔
      ∀ rc : FResult, post (disk.hold none) [⟨.fClose, rc⟩] (.ok rc) := by
  simp [deliverStep, diskStep, Delivers, Disk.answers]

theorem deliver_closeSocket {via : Operand} {sock : Int}
    {post : Disk → List CallEvent → Except Fault Int → Prop} :
    Total deliverStep (close via sock) disk post ↔
      ∀ k : Int, post disk [⟨.close via sock, k⟩] (.ok k) := by
  simp [deliverStep, diskStep, Delivers, Disk.answers]

theorem deliver_open {path : Bytes} (hfile : disk.files path ≠ none) (mode : UInt8)
    (rc : FResult) (u : Disk) :
    deliverStep disk ⟨.fOpen path mode, rc⟩ u ↔
      rc = .ok ∧ u = disk.hold (some ⟨path, 0, false⟩) := smooth_open hfile mode rc u

theorem deliver_doGetFilesize {path content : Bytes} (hfile : disk.files path = some content)
    {post : Disk → List CallEvent → Except Fault Int → Prop} :
    Total deliverStep (doGetFilesize path) disk post ↔
      ∀ rc : FResult, post (disk.hold none) [⟨.fOpen path faRead, FResult.ok⟩,
        ⟨.fSize, UInt32.ofNat content.length⟩, ⟨.fClose, rc⟩]
        (.ok (intOfDword (UInt32.ofNat content.length))) := by
  have hopen : (disk.hold (some ⟨path, 0, false⟩)).Open ⟨path, 0, false⟩ content := ⟨rfl, hfile⟩
  have hsize : ∀ (size : UInt32) (u : Disk),
      deliverStep (disk.hold (some ⟨path, 0, false⟩)) ⟨.fSize, size⟩ u ↔
        size = UInt32.ofNat content.length ∧ u = disk.hold (some ⟨path, 0, false⟩) :=
    smooth_size hopen
  unfold doGetFilesize
  rw [total_bind, total_call_unique (deliver_open (by simp [hfile]) faRead), next_ok, if_pos rfl,
    total_bind, total_call_unique hsize, next_ok, total_bind, deliver_fClose]
  simp only [next_ok, total_pure, List.cons_append, List.nil_append]
  rfl

end Calls

/-- A call to `send` carries at least one byte and no more than the buffer holds. -/
def FillsBlock (e : CallEvent) : Prop :=
  match e.call with
  | .send _ _ data => 1 ≤ data.length ∧ data.length ≤ ftpBufferSize
  | _ => True

def BoundedRead (e : CallEvent) : Prop :=
  match e with
  | ⟨.fRead btr, (_, data)⟩ => data.length ≤ btr
  | _ => True

theorem diskStep_boundedRead (disk : Disk) (e : CallEvent) (u : Disk) (h : diskStep disk e u) :
    BoundedRead e := by
  obtain ⟨q, a⟩ := e
  cases q with
  | fRead btr =>
    obtain ⟨rc, data⟩ := a
    obtain ⟨file, content, -, ⟨-, -, rfl, -⟩ | ⟨-, -, rfl | ⟨-, -, hshort⟩⟩⟩ := h
    · exact List.length_take_le _ _
    · exact Nat.zero_le _
    · exact hshort.le.trans (List.length_take_le _ _)
  | _ => exact trivial

theorem retrLoop_fillsBlock (sock : Int) (fuel : Nat) :
    Always (retrLoop sock fuel) (fun t _ =>
      (∀ e ∈ t, BoundedRead e) → ∀ e ∈ t, FillsBlock e) := by
  rw [always_retrLoop]
  intro blocks last _ hdata hreads
  rw [forall_mem_retrTrace] at hreads ⊢
  refine ⟨fun block hblock => ⟨trivial, ?_⟩, trivial⟩
  have hpos : 1 ≤ block.data.length := List.length_pos_iff.mpr (hdata block hblock)
  exact ⟨hpos, (hreads.1 block hblock).1⟩

theorem retrSeek_fillsBlock (conn : Conn) (path : Bytes) (numBytes : Int) :
    Always (retrSeek conn path numBytes) (fun t _ => ∀ e ∈ t, FillsBlock e) := by
  simp [retrSeek, FillsBlock]

section Loop
variable {disk : Disk} {content : Bytes}

theorem deliver_retrLoop {file : OpenFile} {fuel : Nat} (sock : Int)
    (hopen : disk.Open file content) (herr : file.err = false)
    (hfuel : (content.drop file.fptr).length < fuel) :
    Total deliverStep (retrLoop sock fuel) disk (fun u t r =>
      (u.files = disk.files ∧ sentBytes t = content.drop file.fptr ∧ r = .ok ()) ∧
      ∀ e ∈ t, FillsBlock e) := by
  have hloop := (total_retrLoop sock hopen herr hfuel).congr deliverStep_iff_smoothStep
    (makes_retrLoop sock fuel)
  refine hloop.and_runs ?_
  intro u t r hrun hf
  exact retrLoop_fillsBlock sock fuel t r hrun
    (hf.forall_mem fun w e w' hstep => diskStep_boundedRead w e w' hstep.2)

theorem deliver_retrSeek (conn : Conn) (path : Bytes) (hlen : content.length ≠ 2 ^ 32 - 1)
    (hopen : disk.Open ⟨path, 0, false⟩ content) :
    Total deliverStep (retrSeek conn path (intOfDword (UInt32.ofNat content.length))) disk
      (fun u t r => (r = .ok () ∧ u.files = disk.files ∧ sentBytes t = [] ∧
        ∃ file, u.Open file content ∧ file.err = false ∧
          content.drop file.fptr = transmitted conn.offset content) ∧
        ∀ e ∈ t, FillsBlock e) := by
  have hseek := (total_retrSeek conn path hlen hopen).congr deliverStep_iff_smoothStep
    (makes_retrSeek conn path _)
  exact hseek.and_runs fun u t r hrun _ => retrSeek_fillsBlock conn path _ t r hrun

end Loop

theorem deliver_cmdRetr {disk : Disk} {fuel : Nat} {conn : Conn} {buf arg content : Bytes}
    (hcopy : (cstr (buf.drop 5)).length < 256)
    (hpath : (fullPath conn.currentdir arg).2.length < 256)
    (hfile : disk.files (fullPath conn.currentdir arg).2 = some content)
    (hlen : content.length ≠ 2 ^ 32 - 1) (hfuel : content.length < fuel) :
    Total deliverStep (cmdRetr fuel conn buf (some arg)) disk (fun _ t r =>
      sentBytes t = transmitted conn.offset content ∧ (∀ e ∈ t, FillsBlock e) ∧
        ∃ conn', r = .ok (conn', 0)) := by
  have hnone : disk.files (fullPath conn.currentdir arg).2 ≠ none := by simp [hfile]
  unfold cmdRetr
  simp only [doFullPath, deref, strcpy, Buffer.size, hcopy, hpath, if_true, total_bind, total_pure,
    next_ok, deliver_doGetFilesize hfile, intOfDword_eq_neg_one (disk.small _ content hfile), hlen,
    if_false]
  intro closed
  have hopen : ((disk.hold none).hold (some ⟨(fullPath conn.currentdir arg).2, 0, false⟩)).Open
      ⟨(fullPath conn.currentdir arg).2, 0, false⟩ content := ⟨rfl, hfile⟩
  have hagain := @deliver_open (disk.hold none) _ hnone faRead
  rw [total_call_unique hagain, next_ok, if_neg (by simp), total_bind]
  refine (deliver_retrSeek { conn with currentdir := (fullPath conn.currentdir arg).1 }
    (fullPath conn.currentdir arg).2 hlen hopen).mono ?_
  rintro u t r ⟨⟨rfl, -, hquiet, file, hopen', herr, hrest⟩, hfills⟩
  have hshort : (content.drop file.fptr).length < fuel := by
    rw [List.length_drop]
    omega
  rw [next_ok, total_bind]
  refine (deliver_retrLoop conn.pasvSockfd hopen' herr hshort).mono ?_
  rintro v s r ⟨⟨-, hsent, rfl⟩, hblocks⟩
  rw [next_ok, total_bind]
  refine deliver_reply (Reply.text_ne_nil _) fun sent => ?_
  simp only [next_ok, total_bind, deliver_fClose, deliver_closeSocket, total_pure]
  intro rc k
  refine ⟨?_, ?_, _, rfl⟩
  · simp [hquiet, hsent, hrest]
  · simp only [List.forall_mem_append, List.forall_mem_cons]
    simp [FillsBlock]
    exact ⟨hfills, hblocks⟩

/-- RETR of a file of less than 4 GiB less one byte ends, and the blocks it sends are the file
from the offset on, or all of it when the offset is not inside the file. -/
theorem retr_sends_file {disk : Disk} {fuel : Nat} {conn : Conn} {arg content : Bytes}
    (buf : Bytes) (hfile : disk.files (fullPath conn.currentdir arg).2 = some content)
    (hsize : content.length < 2 ^ 32 - 1) (hfuel : content.length < fuel) :
    Total deliverStep (cmdRetr fuel conn buf (some arg)) disk (fun _ t r =>
      if (cstr (buf.drop 5)).length < 256 ∧ (fullPath conn.currentdir arg).2.length < 256 then
        sentBytes t = content.drop (startPosition conn.offset content) ∧
        (∀ e ∈ t, FillsBlock e) ∧ ∃ conn', r = .ok (conn', 0)
      else r = .error (.overflow .spareBuf) ∧ t = []) := by
  have hsend : transmitted conn.offset content =
      content.drop (startPosition conn.offset content) := if_neg hsize.ne
  by_cases hcopy : (cstr (buf.drop 5)).length < 256
  · by_cases hpath : (fullPath conn.currentdir arg).2.length < 256
    · rw [← hsend]
      simp only [hcopy, hpath, and_self, if_true]
      exact deliver_cmdRetr hcopy hpath hfile hsize.ne hfuel
    · simp [cmdRetr, doFullPath, deref, strcpy, Buffer.size, hcopy, hpath]
  · simp [cmdRetr, strcpy, Buffer.size, hcopy]

def threeBlocks : Bytes := (List.range 1200).map UInt8.ofNat

theorem length_threeBlocks : threeBlocks.length = 1200 := by simp [threeBlocks]

def threeBlockDisk : Disk :=
  .single (bytes "/a") threeBlocks [] (by rw [length_threeBlocks]; decide)

def restartedInside : Conn := { justAccepted with offset := 600 }

theorem retr_sends_file_inside :
    Total deliverStep (cmdRetr 1201 restartedInside retrBuf (some (bytes "/a"))) threeBlockDisk
      (fun _ t r => sentBytes t = threeBlocks.drop 600 ∧ (∀ e ∈ t, FillsBlock e) ∧
        ∃ conn', r = .ok (conn', 0)) := by
  have hfile : threeBlockDisk.files (fullPath restartedInside.currentdir (bytes "/a")).2 =
      some threeBlocks := rfl
  have hsize : threeBlocks.length < 2 ^ 32 - 1 := by
    rw [length_threeBlocks]
    decide
  have hfuel : threeBlocks.length < 1201 := by
    rw [length_threeBlocks]
    decide
  have hstart : startPosition restartedInside.offset threeBlocks = 600 := by
    rw [startPosition, length_threeBlocks]
    decide
  apply Total.mono (retr_sends_file retrBuf hfile hsize hfuel)
  intro disk t r h
  rw [if_pos (by decide), hstart] at h
  exact h

end FtpServer
