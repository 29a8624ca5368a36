import FtpServer.Calls
import FtpServer.Library.Transition

/-! The disk port of FatFs (`diskio.c`): `disk_read` and `disk_write` over the calls of the SD
card driver. -/

namespace FtpServer
open Interaction CString Transition

inductive SdError where
  | ok
  | failed (code : UInt8)
  deriving DecidableEq, Repr

inductive SdTransferState where
  | ok | busy | error
  deriving DecidableEq, Repr

inductive DResult where
  | ok | error | wrprt | notrdy | parerr
  deriving DecidableEq, Repr

/-- The driver is given an address in bytes; a write has the buffer it takes its blocks from. -/
inductive SdCall where
  | readMultiBlocks (addr : UInt32) (blockSize : UInt16) (numberOfBlocks : UInt32)
  | writeMultiBlocks (buff : Bytes) (addr : UInt32) (blockSize : UInt16) (numberOfBlocks : UInt32)
  | waitReadOperation
  | waitWriteOperation
  | getStatus

/-- A read answers with what the DMA stores at the front of the buffer. -/
@[reducible] def SdCall.Answer : SdCall → Type
  | readMultiBlocks _ _ _ => SdError × Bytes
  | writeMultiBlocks _ _ _ _ | waitReadOperation | waitWriteOperation => SdError
  | getStatus => SdTransferState

abbrev Sd := Prog SdCall SdCall.Answer Empty
abbrev SdEvent := Event SdCall SdCall.Answer

section Source

/-- `while (SD_GetStatus() != SD_TRANSFER_OK);` -/
def awaitTransfer : Nat → Sd Unit
  | 0 => .stuck
  | fuel + 1 => do
    let status ← call SdCall.getStatus
    if status ≠ .ok then awaitTransfer fuel else pure ()

def resOf (status : SdError) : DResult := if status = .ok then .ok else .error

def diskRead (fuel : Nat) (buff : Bytes) (sector : UInt32) (_count : UInt8) :
    Sd (DResult × Bytes) := do
  let (_, data) ← call (SdCall.readMultiBlocks (sector <<< 9) 512 1)
  let status ← call SdCall.waitReadOperation
  awaitTransfer fuel
  pure (resOf status, data ++ buff.drop data.length)

def diskWrite (fuel : Nat) (buff : Bytes) (sector : UInt32) (_count : UInt8) : Sd DResult := do
  let _ ← call (SdCall.writeMultiBlocks buff (sector <<< 9) 512 1)
  let status ← call SdCall.waitWriteOperation
  awaitTransfer fuel
  pure (resOf status)

def Ioctl.ctrlSync : UInt8 := 0
def Ioctl.getSectorCount : UInt8 := 1
def Ioctl.getSectorSize : UInt8 := 2
def Ioctl.getBlockSize : UInt8 := 3

def diskIoctl (ctrl : UInt8) (buff : Bytes) : Sd (DResult × Bytes) :=
  if ctrl = Ioctl.getSectorCount then pure (.ok, [0, 0, 2, 0] ++ buff.drop 4)
  else if ctrl = Ioctl.getSectorSize then pure (.ok, [0, 2] ++ buff.drop 2)
  else if ctrl = Ioctl.getBlockSize then pure (.ok, [32, 0, 0, 0] ++ buff.drop 4)
  else pure (.ok, buff)

end Source

section Runs

def statusTrace (others : List SdTransferState) : List SdEvent :=
  others.map (⟨.getStatus, ·⟩) ++ [⟨.getStatus, SdTransferState.ok⟩]

@[simp] theorem always_awaitTransfer {post : List SdEvent → Except Empty Unit → Prop}
    (fuel : Nat) :
    Always (awaitTransfer fuel) post ↔ ∀ others : List SdTransferState, others.length < fuel →
      .ok ∉ others → post (statusTrace others) (.ok ()) := by
  induction fuel generalizing post with
  | zero => simp [awaitTransfer]
  | succ fuel ih =>
    simp only [awaitTransfer, always_bind, always_call, then_ok, always_ite, always_pure, ih]
    constructor
    · rintro h (_ | ⟨status, others⟩) hlen hok
      · exact (h .ok).2 (by simp)
      · obtain ⟨hstatus, hothers⟩ : .ok ≠ status ∧ .ok ∉ others := by simpa using hok
        exact (h status).1 hstatus.symm others (by simpa using hlen) hothers
    · intro h status
      constructor
      · intro hstatus others hlen hok
        exact h (status :: others) (by simpa using hlen) (by simp [Ne.symm hstatus, hok])
      · intro hstatus
        have hdone : status = .ok := by simpa using hstatus
        subst hdone
        exact h [] (Nat.succ_pos fuel) List.not_mem_nil

theorem always_diskRead {post : List SdEvent → Except Empty (DResult × Bytes) → Prop}
    (fuel : Nat) (buff : Bytes) (sector : UInt32) (count : UInt8) :
    Always (diskRead fuel buff sector count) post ↔
      ∀ (started : SdError × Bytes) (status : SdError) (others : List SdTransferState),
        others.length < fuel → .ok ∉ others →
        post (⟨.readMultiBlocks (sector <<< 9) 512 1, started⟩ :: ⟨.waitReadOperation, status⟩ ::
            statusTrace others)
          (.ok (resOf status, started.2 ++ buff.drop started.2.length)) := by
  simp [diskRead]

theorem always_diskWrite {post : List SdEvent → Except Empty DResult → Prop} (fuel : Nat)
    (buff : Bytes) (sector : UInt32) (count : UInt8) :
    Always (diskWrite fuel buff sector count) post ↔
      ∀ (started status : SdError) (others : List SdTransferState),
        others.length < fuel → .ok ∉ others →
        post (⟨.writeMultiBlocks buff (sector <<< 9) 512 1, started⟩ ::
            ⟨.waitWriteOperation, status⟩ :: statusTrace others)
          (.ok (resOf status)) := by
  simp [diskWrite]

end Runs

end FtpServer
