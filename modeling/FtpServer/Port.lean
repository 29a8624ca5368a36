import FtpServer.Sectors

/-! The disk port over a driver of which any transfer may fail. What FatFs has to rely on is that
the wait behind a transfer reports it, whether it did not go through or was not even started. -/

namespace FtpServer
open Interaction CString Transition

/-- `good` says that the last transfer has been started and goes through. -/
structure Driver where
  card : Card
  good : Bool

/-- A transfer that goes through is one of a card that never fails. One that does not may leave
anything, but only in its own blocks. -/
def driverStep (s : Driver) (e : SdEvent) (s' : Driver) : Prop :=
  match e with
  | ⟨.readMultiBlocks addr size n, answer⟩ =>
    s'.card = s.card ∧
      (s'.good = true → sdStep s.card ⟨.readMultiBlocks addr size n, answer⟩ s'.card)
  | ⟨.writeMultiBlocks buff addr size n, status⟩ =>
    (∀ b, ¬(startBlock addr ≤ b ∧ b < startBlock addr + n.toNat) →
        s'.card.block b = s.card.block b) ∧
      (s'.good = true → sdStep s.card ⟨.writeMultiBlocks buff addr size n, status⟩ s'.card)
  | ⟨.waitReadOperation, status⟩ => (status = .ok → s.good = true) ∧ s' = s
  | ⟨.waitWriteOperation, status⟩ => (status = .ok → s.good = true) ∧ s' = s
  | ⟨.getStatus, _⟩ => s' = s

def Carries {α : Type} (card : Card) (p : Sd α) (r : α) (card' : Card) : Prop :=
  ∃ good t s', Runs p t (.ok r) ∧ Follows driverStep ⟨card, good⟩ t s' ∧ s'.card = card'

section Port
variable {card card' : Card} {s s' : Driver} {fuel : Nat} {buff data : Bytes} {sector : UInt32}
  {count : UInt8} {res : DResult}

theorem Card.ext (h : ∀ b, card'.block b = card.block b) : card' = card := by
  obtain ⟨block, _⟩ := card
  obtain ⟨block', _⟩ := card'
  obtain rfl : block' = block := funext h
  rfl

theorem resOf_ok {status : SdError} : resOf status = .ok ↔ status = .ok := by
  unfold resOf
  split <;> simp_all

theorem driver_statusTrace {others : List SdTransferState}
    (h : Follows driverStep s (statusTrace others) s') : s' = s := by
  induction others generalizing s with
  | nil =>
    obtain ⟨u, rfl, rfl⟩ := h
    rfl
  | cons status others ih =>
    obtain ⟨u, rfl, hrest⟩ := h
    exact ih hrest

theorem single_block {b : Nat} : startBlock (sector <<< 9) ≤ b ∧
    b < startBlock (sector <<< 9) + (1 : UInt32).toNat ↔ b = placedAt sector := by
  have hone : (1 : UInt32).toNat = 1 := rfl
  rw [startBlock_sector]
  omega

/-- Nothing but the block of the sector is read, and that is what a success says. -/
theorem carries_diskRead (h : Carries card (diskRead fuel buff sector count) (res, data) card') :
    card' = card ∧ (res = .ok → data.take 512 = card.block (placedAt sector)) := by
  obtain ⟨good, t, s', hrun, hf, rfl⟩ := h
  have hall : Always (diskRead fuel buff sector count) (fun t r => ∀ s' res data,
      r = .ok (res, data) → Follows driverStep ⟨card, good⟩ t s' →
      s'.card = card ∧ (res = .ok → data.take 512 = card.block (placedAt sector))) := by
    rw [always_diskRead]
    rintro ⟨started, stored⟩ status others - - s' res data heq
      ⟨u, ⟨hcard, hgood⟩, v, ⟨hwait, rfl⟩, hrest⟩
    obtain ⟨rfl, rfl⟩ := Prod.mk.inj (Except.ok.inj heq)
    rw [driver_statusTrace hrest]
    refine ⟨hcard, fun hok => ?_⟩
    obtain ⟨-, rfl, -⟩ := hgood (hwait (resOf_ok.mp hok))
    have hblock : card.read (startBlock (sector <<< 9)) (1 : UInt32).toNat =
        card.block (placedAt sector) := by
      rw [startBlock_sector]
      simp [Card.read]
    rw [hblock]
    exact List.take_left' (card.length_block _)
  exact hall t _ hrun s' res data rfl hf

/-- Nothing but the block of the sector is written, and it is when a success is reported. -/
theorem carries_diskWrite (h : Carries card (diskWrite fuel buff sector count) res card') :
    (∀ b, b ≠ placedAt sector → card'.block b = card.block b) ∧
      (res = .ok → card'.block (placedAt sector) = buff.take 512) := by
  obtain ⟨good, t, s', hrun, hf, rfl⟩ := h
  have hall : Always (diskWrite fuel buff sector count) (fun t r => ∀ s' res, r = .ok res →
      Follows driverStep ⟨card, good⟩ t s' →
      (∀ b, b ≠ placedAt sector → s'.card.block b = card.block b) ∧
        (res = .ok → s'.card.block (placedAt sector) = buff.take 512)) := by
    rw [always_diskWrite]
    rintro started status others - - s' res heq ⟨u, ⟨hother, hgood⟩, v, ⟨hwait, rfl⟩, hrest⟩
    obtain rfl := Except.ok.inj heq
    rw [driver_statusTrace hrest]
    refine ⟨fun b hb => hother b (mt single_block.mp hb), fun hok => ?_⟩
    obtain ⟨-, hwritten⟩ := hgood (hwait (resOf_ok.mp hok))
    rw [hwritten, if_pos (single_block.mpr rfl), startBlock_sector]
    simp [blockOf]
  exact hall t _ hrun s' res rfl hf

theorem carries_diskIoctl : Carries card (diskIoctl Ioctl.ctrlSync buff) (res, data) card' ↔
    (res = .ok ∧ data = buff) ∧ card' = card := by
  constructor
  · rintro ⟨good, t, s', ⟨rfl, heq⟩, rfl, rfl⟩
    obtain ⟨rfl, rfl⟩ := Prod.mk.inj (Except.ok.inj heq)
    exact ⟨⟨rfl, rfl⟩, rfl⟩
  · rintro ⟨⟨rfl, rfl⟩, rfl⟩
    exact ⟨true, [], _, ⟨rfl, rfl⟩, rfl, rfl⟩

theorem sdStep_driver {e : SdEvent} (h : sdStep card e card') :
    driverStep ⟨card, true⟩ e ⟨card', true⟩ := by
  obtain ⟨call, answer⟩ := e
  cases call with
  | readMultiBlocks addr size n => exact ⟨h.2.2, fun _ => h⟩
  | writeMultiBlocks buff addr size n =>
    refine ⟨fun b hb => ?_, fun _ => h⟩
    rw [h.2 b, if_neg hb]
  | waitReadOperation =>
    obtain ⟨-, rfl⟩ := h
    exact ⟨fun _ => rfl, rfl⟩
  | waitWriteOperation =>
    obtain ⟨-, rfl⟩ := h
    exact ⟨fun _ => rfl, rfl⟩
  | getStatus =>
    obtain rfl : card' = card := h
    exact rfl

theorem carries_of_sdStep {α : Type} {p : Sd α} {r : α} {t : List SdEvent}
    (hrun : Runs p t (.ok r)) (hf : Follows sdStep card t card') : Carries card p r card' := by
  have hsim : ∃ s', Follows driverStep ⟨card, true⟩ (t.map id) s' ∧ s' = ⟨card', true⟩ :=
    hf.refines (fun card (s : Driver) => s = ⟨card, true⟩) id
      (by
        rintro card e card' _ rfl hstep
        exact ⟨_, sdStep_driver hstep, rfl⟩)
      rfl
  obtain ⟨_, hf', rfl⟩ := hsim
  rw [List.map_id] at hf'
  exact ⟨true, t, _, hrun, hf', rfl⟩

theorem exists_carries_diskRead (card : Card) (sector : UInt32) (count : UInt8) (buff : Bytes) :
    Carries card (diskRead 1 buff sector count)
      (.ok, card.block (placedAt sector) ++ buff.drop 512) card := by
  obtain ⟨t, r, card', hrun, hf⟩ := exists_diskRead card sector count buff
  obtain rfl := diskRead_gives hrun hf
  have hcarries := carries_of_sdStep hrun hf
  rwa [(carries_diskRead hcarries).1] at hcarries

theorem exists_carries_diskWrite (card : Card) (sector : UInt32) (count : UInt8)
    (hbuff : 512 ≤ buff.length) :
    ∃ card', Carries card (diskWrite 1 buff sector count) .ok card' := by
  obtain ⟨t, card', hrun, hf⟩ := exists_diskWrite card sector count hbuff
  exact ⟨card', carries_of_sdStep hrun hf⟩

end Port

end FtpServer
