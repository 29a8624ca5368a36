import FtpServer.Port
import FtpServer.Library.Overlay
import FtpServer.Library.Packed
import FtpServer.Library.Stateful

/-! What FatFs calls: `disk_read`, `disk_write` and `disk_ioctl` on the sectors of a card of which
any transfer may fail. The loads and stores of `ff.h` act on the bytes of one sector. -/

namespace FtpServer
open Interaction CString Overlay Packed Transition

structure Sector where
  bytes : Bytes
  length_bytes : bytes.length = 512
  deriving DecidableEq

section Sector

theorem Sector.ext {s s' : Sector} (h : s.bytes = s'.bytes) : s = s' := by
  cases s
  cases s'
  obtain rfl := h
  rfl

def Sector.get (s : Sector) (i : Nat) : UInt8 := s.bytes.getD i 0

theorem Sector.length_overlay (s : Sector) (i : Nat) (data : Bytes) :
    ((overlay s.bytes i data).take 512).length = 512 := by
  have hlen := s.length_bytes
  simp only [overlay, List.length_take, List.length_append, List.length_drop]
  omega

def Sector.store (s : Sector) (i : Nat) (data : Bytes) : Sector where
  bytes := (overlay s.bytes i data).take 512
  length_bytes := s.length_overlay i data

def Sector.slice (s : Sector) (i n : Nat) : Bytes := (s.bytes.drop i).take n

def Sector.zero : Sector := ⟨List.replicate 512 0, List.length_replicate⟩

def ldWord (s : Sector) (p : Nat) : Nat := (s.get (p + 1)).toNat <<< 8 ||| (s.get p).toNat

def ldDword (s : Sector) (p : Nat) : Nat :=
  (s.get (p + 3)).toNat <<< 24 ||| (s.get (p + 2)).toNat <<< 16 ||| (s.get (p + 1)).toNat <<< 8 |||
    (s.get p).toNat

def stWord (s : Sector) (p val : Nat) : Sector :=
  s.store p [UInt8.ofNat val, UInt8.ofNat (val >>> 8)]

def stDword (s : Sector) (p val : Nat) : Sector :=
  s.store p [UInt8.ofNat val, UInt8.ofNat (val >>> 8), UInt8.ofNat (val >>> 16),
    UInt8.ofNat (val >>> 24)]

@[simp] theorem Sector.get_zero (i : Nat) : Sector.zero.get i = 0 := by
  simp only [Sector.get, Sector.zero, List.getD_eq_getElem?_getD, List.getElem?_replicate]
  split <;> rfl

theorem Sector.get_store {s : Sector} {i : Nat} {data : Bytes} (h : i + data.length ≤ 512)
    (j : Nat) : (s.store i data).get j =
      if i ≤ j ∧ j < i + data.length then data.getD (j - i) 0 else s.get j := by
  have hlen := s.length_bytes
  have htake : (overlay s.bytes i data).take 512 = overlay s.bytes i data := by
    apply List.take_of_length_le
    rw [Overlay.length_overlay (by omega)]
    omega
  simp only [Sector.get, Sector.store, htake]
  exact getD_overlay (by omega) data j 0

theorem Sector.get_store_one {s : Sector} {i : Nat} (h : i < 512) (b : UInt8) (j : Nat) :
    (s.store i [b]).get j = if j = i then b else s.get j := by
  rw [Sector.get_store (by simpa using h)]
  by_cases hj : j = i
  · simp [hj]
  · have hout : ¬(i ≤ j ∧ j < i + [b].length) := by
      simp only [List.length_singleton]
      omega
    rw [if_neg hout, if_neg hj]

theorem ldWord_eq (s : Sector) (p : Nat) : ldWord s p = word s.get p :=
  or_shiftLeft_byte (s.get p).toNat_lt _

theorem ldDword_eq (s : Sector) (p : Nat) : ldDword s p = dword s.get p := by
  have hshift : ∀ n : Nat, n <<< 24 = (n <<< 8) <<< 16 := fun n => by
    rw [← Nat.shiftLeft_add]
  have hlow := word_lt s.get p
  rw [ldDword, Nat.or_assoc, or_shiftLeft_byte (s.get p).toNat_lt, hshift,
    ← Nat.shiftLeft_or_distrib, or_shiftLeft_byte (s.get (p + 2)).toNat_lt,
    ← Nat.shiftLeft_add_eq_or_of_lt (b := (s.get p).toNat + 256 * (s.get (p + 1)).toNat) hlow,
    Nat.shiftLeft_eq]
  simp only [dword, word, Nat.add_assoc, Nat.reduceAdd]
  omega

theorem get_stWord {s : Sector} {p : Nat} (h : p + 2 ≤ 512) (v : Nat) :
    (stWord s p v).get = putWord s.get p v := by
  funext j
  rw [stWord, Sector.get_store (by simpa using h), putWord, Nat.shiftRight_eq_div_pow]
  by_cases hfst : j = p
  · subst hfst
    simp
  by_cases hsnd : j = p + 1
  · subst hsnd
    simp
  rw [Function.update_of_ne hsnd, Function.update_of_ne hfst, if_neg]
  simp only [List.length_cons, List.length_nil]
  omega

theorem get_stDword {s : Sector} {p : Nat} (h : p + 4 ≤ 512) (v : Nat) :
    (stDword s p v).get = putDword s.get p v := by
  funext j
  rw [stDword, Sector.get_store (by simpa using h), putDword, putWord, putWord]
  simp only [Nat.shiftRight_eq_div_pow, Nat.div_div_eq_div_mul]
  by_cases h₃ : j = p + 3
  · subst h₃
    simp
  by_cases h₂ : j = p + 2
  · subst h₂
    simp
  by_cases h₁ : j = p + 1
  · subst h₁
    simp
  by_cases h₀ : j = p
  · subst h₀
    simp [Nat.add_assoc]
  rw [Function.update_of_ne h₃, Function.update_of_ne h₂, Function.update_of_ne h₁,
    Function.update_of_ne h₀, if_neg]
  simp only [List.length_cons, List.length_nil]
  omega

end Sector

/-- A transfer names its sectors and, for a write, what is in the buffer. -/
inductive DiskCall where
  | read (sector count : Nat)
  | write (sector count : Nat) (data : Vector Sector count)
  | ctrlSync
  deriving DecidableEq

/-- A read answers with what is in the buffer afterwards, also where it fails. -/
@[reducible] def DiskCall.Answer : DiskCall → Type
  | read _ count => DResult × Vector Sector count
  | write _ _ _ | ctrlSync => DResult

abbrev DiskEvent := Event DiskCall DiskCall.Answer

abbrev Sectors := Nat → Sector

def failedTransfer (e : DiskEvent) : Bool :=
  match e with
  | ⟨.read _ _, (res, _)⟩ => decide (res ≠ .ok)
  | ⟨.write _ _ _, res⟩ | ⟨.ctrlSync, res⟩ => decide (res ≠ .ok)

/-- The sectors of a device, and whether the last write to a sector has failed. -/
structure Device where
  sectors : Sectors
  failed : Nat → Bool

def Device.put (dev : Device) (sector : Nat) (data : Sector) (res : DResult) : Device where
  sectors := Function.update dev.sectors sector data
  failed := Function.update dev.failed sector (decide (res ≠ .ok))

/-- The block that a sector is read from and written to: its byte address has 32 bits. -/
def blockFor (sector : Nat) : Nat := sector % 2 ^ 23

def Device.card (dev : Device) : Card where
  block n := (dev.sectors n).bytes
  length_block n := (dev.sectors n).length_bytes

def bufferBytes {n : Nat} (data : Vector Sector n) : Bytes := data.toList.flatMap Sector.bytes

/-- A call of the disk port. Its buffer is where the memory `buff` begins; what a read leaves
there is `buff'`. -/
def deviceStep (dev : Device) (e : DiskEvent) (dev' : Device) : Prop :=
  match e with
  | ⟨.read sector count, (res, data)⟩ => dev'.failed = dev.failed ∧
    ∃ fuel buff buff', bufferBytes data = buff'.take (512 * count) ∧
      Carries dev.card (diskRead fuel buff (.ofNat sector) (.ofNat count)) (res, buff') dev'.card
  | ⟨.write sector count data, res⟩ =>
    dev'.failed = Function.update dev.failed (blockFor sector) (decide (res ≠ .ok)) ∧
    ∃ fuel buff, bufferBytes data = buff.take (512 * count) ∧
      Carries dev.card (diskWrite fuel buff (.ofNat sector) (.ofNat count)) res dev'.card
  | ⟨.ctrlSync, res⟩ => dev'.failed = dev.failed ∧
    ∃ buff', Carries dev.card (diskIoctl Ioctl.ctrlSync []) (res, buff') dev'.card

/-- What FatFs may rely on: one block is transferred, whatever the count. A read that fails
leaves anything in the buffer, a write that fails leaves anything in the block. -/
def Device.answers (dev dev' : Device) : (c : DiskCall) → c.Answer → Prop
  | .read sector count, (res, data) =>
    dev' = dev ∧ (res = .ok → ∀ h : 0 < count, data.get ⟨0, h⟩ = dev.sectors (blockFor sector))
  | .write sector count data, res =>
    ∃ block, dev' = dev.put (blockFor sector) block res ∧
      (res = .ok → ∀ h : 0 < count, block = data.get ⟨0, h⟩)
  | .ctrlSync, res => res = .ok ∧ dev' = dev

section Port
variable {dev dev' : Device} {sector n : Nat}

theorem placedAt_ofNat : placedAt (UInt32.ofNat sector) = blockFor sector := by
  rw [placedAt, blockFor, UInt32.toNat_ofNat']
  omega

theorem Device.ext_card (hcard : ∀ b, dev'.card.block b = dev.card.block b)
    (hfailed : dev'.failed = dev.failed) : dev' = dev := by
  obtain ⟨sectors, failed⟩ := dev
  obtain ⟨sectors', failed'⟩ := dev'
  obtain rfl : failed' = failed := hfailed
  obtain rfl : sectors' = sectors := funext fun b => Sector.ext (hcard b)
  rfl

theorem length_bufferBytes (data : Vector Sector n) : (bufferBytes data).length = 512 * n := by
  have hlen : data.toList.map (fun s => s.bytes.length) = List.replicate n 512 := by
    rw [List.eq_replicate_iff]
    simp [Sector.length_bytes]
  rw [bufferBytes, List.length_flatMap, hlen, List.sum_replicate, smul_eq_mul, Nat.mul_comm]

theorem take_bufferBytes {data : Vector Sector n} (h : 0 < n) :
    (bufferBytes data).take 512 = (data.get ⟨0, h⟩).bytes := by
  obtain ⟨⟨l⟩, rfl⟩ := data
  cases l with
  | nil => exact absurd h (lt_irrefl _)
  | cons first rest => exact List.take_left' first.length_bytes

/-- `disk_read`, `disk_write` and `disk_ioctl` keep to what FatFs relies on. -/
theorem deviceStep_answers {e : DiskEvent} (h : deviceStep dev e dev') :
    dev.answers dev' e.call e.answer := by
  obtain ⟨call, answer⟩ := e
  cases call with
  | read sector count =>
    obtain ⟨hfailed, fuel, buff, buff', hdata, hcarries⟩ := h
    obtain ⟨hcard, hread⟩ := carries_diskRead hcarries
    refine ⟨Device.ext_card (fun b => by rw [hcard]) hfailed, fun hres hcount => Sector.ext ?_⟩
    have hblock := hread hres
    rw [placedAt_ofNat] at hblock
    rw [← take_bufferBytes hcount, hdata, List.take_take, Nat.min_eq_left (by omega), hblock]
    rfl
  | write sector count data =>
    obtain ⟨hfailed, fuel, buff, hdata, hcarries⟩ := h
    obtain ⟨hother, hwritten⟩ := carries_diskWrite hcarries
    rw [placedAt_ofNat] at hother hwritten
    refine ⟨dev'.sectors (blockFor sector), Device.ext_card (fun b => ?_) hfailed,
      fun hres hcount => Sector.ext ?_⟩
    · change (dev'.sectors b).bytes = (Function.update dev.sectors (blockFor sector) _ b).bytes
      by_cases hb : b = blockFor sector
      · rw [hb, Function.update_self]
      · rw [Function.update_of_ne hb]
        exact hother b hb
    · refine (hwritten hres).trans ?_
      rw [← take_bufferBytes hcount, hdata, List.take_take, Nat.min_eq_left (by omega)]
  | ctrlSync =>
    obtain ⟨hfailed, buff', hcarries⟩ := h
    obtain ⟨⟨hres, -⟩, hcard⟩ := carries_diskIoctl.mp hcarries
    exact ⟨hres, Device.ext_card (fun b => by rw [hcard]) hfailed⟩

def Device.serve (dev : Device) : (c : DiskCall) → c.Answer × Device
  | .read sector count => ((.ok, Vector.replicate count (dev.sectors (blockFor sector))), dev)
  | .write sector count data =>
    (.ok, dev.put (blockFor sector) (if h : 0 < count then data.get ⟨0, h⟩ else .zero) .ok)
  | .ctrlSync => (.ok, dev)

theorem Device.serve_step (dev : Device) (c : DiskCall) :
    deviceStep dev ⟨c, (dev.serve c).1⟩ (dev.serve c).2 := by
  cases c with
  | read sector count =>
    let data := Vector.replicate count (dev.sectors (blockFor sector))
    refine ⟨rfl, 1, bufferBytes data, _, ?_, exists_carries_diskRead _ _ _ _⟩
    change bufferBytes data = _
    rw [placedAt_ofNat]
    cases count with
    | zero => simp [bufferBytes, data]
    | succ count =>
      have hfirst : (bufferBytes data).take 512 = dev.card.block (blockFor sector) := by
        rw [take_bufferBytes (Nat.succ_pos count)]
        exact congrArg Sector.bytes (Vector.getElem_replicate _)
      rw [← hfirst, List.take_append_drop, List.take_of_length_le (length_bufferBytes data).le]
  | write sector count data =>
    let buff := bufferBytes data ++ Sector.zero.bytes
    have hbuff : 512 ≤ buff.length := by simp [buff, Sector.length_bytes]
    obtain ⟨card', hcarries⟩ :=
      exists_carries_diskWrite dev.card (.ofNat sector) (.ofNat count) hbuff
    refine ⟨by simp [serve, put], 1, buff, (List.take_left' (length_bufferBytes data)).symm, ?_⟩
    obtain ⟨hother, hwritten⟩ := carries_diskWrite hcarries
    rw [placedAt_ofNat] at hother hwritten
    have hsame : card' = (dev.serve (.write sector count data)).2.card := Card.ext fun b => by
      change _ = (Function.update dev.sectors (blockFor sector) _ b).bytes
      by_cases hb : b = blockFor sector
      · rw [hb, Function.update_self, hwritten rfl]
        split
        · rename_i hcount
          rw [← take_bufferBytes hcount, List.take_append_of_le_length]
          rw [length_bufferBytes]
          omega
        · obtain rfl : count = 0 := by omega
          have hnone : bufferBytes data = [] :=
            List.eq_nil_of_length_eq_zero (length_bufferBytes data)
          simp [buff, hnone, Sector.length_bytes]
      · rw [Function.update_of_ne hb, hother b hb]
        rfl
    exact hsame ▸ hcarries
  | ctrlSync => exact ⟨rfl, [], carries_diskIoctl.mpr ⟨⟨rfl, rfl⟩, rfl⟩⟩

end Port

abbrev notedStep : Device × Bool → DiskEvent → Device × Bool → Prop :=
  Noting failedTransfer deviceStep

theorem Device.serve_quiet (dev : Device) (c : DiskCall) :
    failedTransfer ⟨c, (dev.serve c).1⟩ = false := by
  cases c <;> rfl

section Device
variable {dev : Device} {sector n : Nat} {data : Sector} {res : DResult}

theorem blockFor_of_lt (h : n < 2 ^ 23) : blockFor n = n := Nat.mod_eq_of_lt h

@[simp] theorem Device.put_sectors :
    (dev.put sector data res).sectors = Function.update dev.sectors sector data := rfl

theorem Device.put_sectors_of_ne (h : n ≠ sector) :
    (dev.put sector data res).sectors n = dev.sectors n :=
  Function.update_of_ne h _ _

theorem Device.put_failed_of_ne (h : n ≠ sector) :
    (dev.put sector data res).failed n = dev.failed n :=
  Function.update_of_ne h _ _

theorem Device.put_failed_self : (dev.put sector data res).failed sector = decide (res ≠ .ok) :=
  Function.update_self ..

end Device

end FtpServer
