import FtpServer.Diskio

/-! The disk port on a high-capacity card. The sector becomes a byte address of 32 bits, which
the driver divides by the block size again, and one block is asked for whatever the count is. -/

namespace FtpServer
open Interaction CString Transition

structure Card where
  block : Nat → Bytes
  length_block : ∀ s, (block s).length = 512

section Driver

def Card.read (card : Card) (start n : Nat) : Bytes :=
  (List.range n).flatMap fun i => card.block (start + i)

def blockOf (buff : Bytes) (i : Nat) : Bytes := (buff.drop (512 * i)).take 512

/-- `ReadAddr /= 512` and `WriteAddr /= 512`. -/
def startBlock (addr : UInt32) : Nat := (addr / 512).toNat

/-- The driver on a high-capacity card transfers the blocks it is asked for, and succeeds; the
card may be busy as long as it likes. -/
def sdStep (card : Card) (e : SdEvent) (card' : Card) : Prop :=
  match e with
  | ⟨.readMultiBlocks addr _ n, (status, data)⟩ =>
    status = .ok ∧ data = card.read (startBlock addr) n.toNat ∧ card' = card
  | ⟨.writeMultiBlocks buff addr _ n, status⟩ =>
    status = .ok ∧ ∀ s, card'.block s =
      if startBlock addr ≤ s ∧ s < startBlock addr + n.toNat then blockOf buff (s - startBlock addr)
      else card.block s
  | ⟨.waitReadOperation, status⟩ => status = .ok ∧ card' = card
  | ⟨.waitWriteOperation, status⟩ => status = .ok ∧ card' = card
  | ⟨.getStatus, _⟩ => card' = card

/-- The block that a sector is read from and written to. -/
def placedAt (sector : UInt32) : Nat := sector.toNat % 2 ^ 23

theorem startBlock_sector (sector : UInt32) : startBlock (sector <<< 9) = placedAt sector := by
  have hshift : (sector <<< 9).toNat = sector.toNat <<< 9 % 2 ^ 32 := UInt32.toNat_shiftLeft ..
  rw [startBlock, placedAt, UInt32.toNat_div, hshift, Nat.shiftLeft_eq]
  change sector.toNat * 2 ^ 9 % 2 ^ 32 / 512 = sector.toNat % 2 ^ 23
  omega

theorem follows_statusTrace {others : List SdTransferState} {card card' : Card}
    (h : Follows sdStep card (statusTrace others) card') : card' = card := by
  induction others generalizing card with
  | nil =>
    obtain ⟨u, rfl, rfl⟩ := h
    rfl
  | cons status others ih =>
    obtain ⟨u, rfl, hrest⟩ := h
    exact ih hrest

end Driver

section Transfers
variable {card card' : Card} {fuel : Nat} {sector : UInt32} {count : UInt8}

theorem diskWrite_stores {data : Bytes} {t : List SdEvent} {r : Except Empty DResult}
    (hrun : Runs (diskWrite fuel data sector count) t r) (hf : Follows sdStep card t card') :
    ∀ s, card'.block s = if s = placedAt sector then data.take 512 else card.block s := by
  have hall : Always (diskWrite fuel data sector count) (fun t _ => ∀ card',
      Follows sdStep card t card' →
      ∀ s, card'.block s = if s = placedAt sector then data.take 512 else card.block s) := by
    rw [always_diskWrite]
    rintro started status others - - card' ⟨u, ⟨-, hwritten⟩, v, ⟨-, rfl⟩, hrest⟩ s
    rw [follows_statusTrace hrest, hwritten s, startBlock_sector]
    have hone : (1 : UInt32).toNat = 1 := rfl
    by_cases hs : s = placedAt sector
    · simp [hs, blockOf]
    · rw [if_neg hs, if_neg (by omega)]
  exact hall t r hrun card' hf

theorem diskRead_gives {buff : Bytes} {t : List SdEvent} {r : Except Empty (DResult × Bytes)}
    (hrun : Runs (diskRead fuel buff sector count) t r) (hf : Follows sdStep card t card') :
    r = .ok (.ok, card.block (placedAt sector) ++ buff.drop 512) := by
  have hall : Always (diskRead fuel buff sector count) (fun t r => ∀ card',
      Follows sdStep card t card' →
      r = .ok (.ok, card.block (placedAt sector) ++ buff.drop 512)) := by
    rw [always_diskRead]
    rintro ⟨started, data⟩ status others - - card' ⟨u, ⟨-, hdata, rfl⟩, v, ⟨rfl, -⟩, -⟩
    have hblock : data = u.block (placedAt sector) := by
      rw [hdata, startBlock_sector]
      simp [Card.read]
    rw [hblock, u.length_block]
    rfl
  exact hall t r hrun card' hf

def Card.write (card : Card) (start : Nat) (data : Bytes) (hdata : 512 ≤ data.length) : Card where
  block := fun s => if s = start then data.take 512 else card.block s
  length_block := by
    intro s
    split
    · simpa using hdata
    · exact card.length_block s

theorem exists_diskWrite (card : Card) (sector : UInt32) (count : UInt8) {data : Bytes}
    (hdata : 512 ≤ data.length) :
    ∃ t card', Runs (diskWrite 1 data sector count) t (.ok .ok) ∧ Follows sdStep card t card' := by
  refine ⟨_, card.write (placedAt sector) data hdata,
    runs_of_always fun post h => (always_diskWrite 1 data sector count).mp h .ok .ok []
      (by decide) (by decide), ?_⟩
  refine ⟨_, ⟨rfl, fun s => ?_⟩, _, ⟨rfl, rfl⟩, _, rfl, rfl⟩
  have hone : (1 : UInt32).toNat = 1 := rfl
  rw [startBlock_sector]
  by_cases hs : s = placedAt sector
  · simp [Card.write, hs, blockOf]
  · rw [if_neg (by omega)]
    exact if_neg hs

theorem exists_diskRead (card : Card) (sector : UInt32) (count : UInt8) (buff : Bytes) :
    ∃ t r card', Runs (diskRead 1 buff sector count) t r ∧ Follows sdStep card t card' := by
  have hone : (1 : UInt32).toNat = 1 := rfl
  refine ⟨_, _, card, runs_of_always fun post h => (always_diskRead 1 buff sector count).mp h
    (.ok, card.read (startBlock (sector <<< 9)) 1) .ok [] (by decide) (by decide), ?_⟩
  exact ⟨card, ⟨rfl, rfl, rfl⟩, card, ⟨rfl, rfl⟩, card, rfl, rfl⟩

end Transfers

section Array

/-- After a write that succeeds a read gives the same data, whatever was in its buffer, and no
other sector has changed. -/
def SectorArray (card : Card) (sector : UInt32) (count : UInt8) (data : Bytes) : Prop :=
  ∀ fuel t card', Runs (diskWrite fuel data sector count) t (.ok .ok) →
    Follows sdStep card t card' →
    (∀ fuel' buff t' r card'', buff.length = data.length →
      Runs (diskRead fuel' buff sector count) t' r → Follows sdStep card' t' card'' →
      r = .ok (.ok, data)) ∧
    ∀ s, ¬(sector.toNat ≤ s ∧ s < sector.toNat + count.toNat) → card'.block s = card.block s

variable {card : Card} {sector : UInt32} {count : UInt8} {data : Bytes}

theorem SectorArray.one_block (h : SectorArray card sector count data)
    (hcount : 1 ≤ count) (hdata : data.length = 512 * count.toNat) : count = 1 := by
  have hpos : 1 ≤ count.toNat := UInt8.le_iff_toNat_le.mp hcount
  have hlong : 512 ≤ data.length := by omega
  obtain ⟨t, card', hwrite, hf⟩ := exists_diskWrite card sector count hlong
  have hread : ∀ b : Byte,
      card'.block (placedAt sector) ++ (List.replicate data.length b).drop 512 = data := by
    intro b
    obtain ⟨t', r, card'', hrun, hf'⟩ :=
      exists_diskRead card' sector count (List.replicate data.length b)
    have hdata' := (h 1 t card' hwrite hf).1 1 _ t' r card'' List.length_replicate hrun hf'
    rw [diskRead_gives hrun hf'] at hdata'
    simpa using hdata'
  have hsame := List.append_cancel_left ((hread 0).trans (hread 1).symm)
  rw [List.drop_replicate, List.drop_replicate] at hsame
  by_contra hmany
  have hmany' : count.toNat ≠ 1 := fun heq => hmany (UInt8.toNat_inj.mp heq)
  obtain ⟨k, hk⟩ : ∃ k, data.length - 512 = k + 1 := ⟨data.length - 513, by omega⟩
  rw [hk] at hsame
  exact absurd hsame (by simp [List.replicate_succ])

theorem SectorArray.placed (h : SectorArray card sector 1 data) (hdata : data.length = 512) :
    sector.toNat < 2 ^ 23 ∨ card.block (placedAt sector) = data := by
  by_contra hcond
  obtain ⟨hlarge, hother⟩ := not_or.mp hcond
  obtain ⟨t, card', hwrite, hf⟩ := exists_diskWrite card sector 1 hdata.ge
  have houtside : ¬(sector.toNat ≤ placedAt sector ∧
      placedAt sector < sector.toNat + (1 : UInt8).toNat) := by
    unfold placedAt
    omega
  have hkept := (h 1 t card' hwrite hf).2 (placedAt sector) houtside
  rw [diskWrite_stores hwrite hf, if_pos rfl, List.take_of_length_le hdata.le] at hkept
  exact hother hkept.symm

theorem sectorArray_of_placed (hdata : data.length = 512)
    (hcond : sector.toNat < 2 ^ 23 ∨ card.block (placedAt sector) = data) :
    SectorArray card sector 1 data := by
  intro fuel t card' hwrite hf
  have hstores := diskWrite_stores hwrite hf
  rw [List.take_of_length_le hdata.le] at hstores
  constructor
  · intro fuel' buff t' r card'' hbuff hrun hf'
    rw [diskRead_gives hrun hf', hstores, if_pos rfl, List.drop_of_length_le (by omega),
      List.append_nil]
  · intro s houtside
    have hone : (1 : UInt8).toNat = 1 := rfl
    rw [hstores]
    split
    · rename_i hs
      subst hs
      cases hcond with
      | inl hsmall =>
        have hplaced : placedAt sector = sector.toNat := Nat.mod_eq_of_lt hsmall
        omega
      | inr hsame => exact hsame.symm
    · rfl

/-- The disk port is a sector array exactly for single sectors in the first 4 GiB, and for a
sector behind them whose data the sector it is written to holds already. -/
theorem sector_array_iff (hcount : 1 ≤ count) (hdata : data.length = 512 * count.toNat) :
    SectorArray card sector count data ↔
      count = 1 ∧ (sector.toNat < 2 ^ 23 ∨ card.block (sector.toNat % 2 ^ 23) = data) := by
  constructor
  · intro h
    obtain rfl := h.one_block hcount hdata
    exact ⟨rfl, h.placed hdata⟩
  · rintro ⟨rfl, hcond⟩
    exact sectorArray_of_placed hdata hcond

def blankCard : Card := ⟨fun _ => List.replicate 512 0, fun _ => List.length_replicate⟩

theorem sector_array_iff_far :
    SectorArray blankCard 0x800000 1 (List.replicate 512 1) ↔
      (1 : UInt8) = 1 ∧ ((0x800000 : UInt32).toNat < 2 ^ 23 ∨
        blankCard.block ((0x800000 : UInt32).toNat % 2 ^ 23) = List.replicate 512 1) :=
  sector_array_iff (by decide) List.length_replicate

theorem far_sector_aliases :
    ¬∀ (card : Card) (sector : UInt32) (count : UInt8) (data : Bytes), 1 ≤ count →
      sector.toNat + count.toNat ≤ 2 ^ 32 → data.length = 512 * count.toNat →
      SectorArray card sector count data := by
  intro h
  have harray := h blankCard 0x800000 1 (List.replicate 512 1) (by decide) (by decide)
    List.length_replicate
  have hplaced := harray.placed List.length_replicate
  have hblock : blankCard.block (placedAt 0x800000) ≠ List.replicate 512 1 := by
    intro hsame
    have hhead := congrArg List.head? hsame
    rw [blankCard, List.head?_replicate, List.head?_replicate] at hhead
    exact absurd hhead (by decide)
  exact hplaced.elim (by decide) hblock

end Array

end FtpServer
