import Mathlib.Tactic

/-! Numbers of 12, 16 and 32 bits packed into a byte memory, low byte first. Two numbers of
12 bits share three bytes, so that storing one must keep half a byte of the other. -/

namespace Packed

abbrev Cells := Nat → UInt8

section Bits

theorem or_shiftLeft_byte {a : Nat} (h : a < 2 ^ 8) (b : Nat) : b <<< 8 ||| a = a + 256 * b := by
  rw [← Nat.shiftLeft_add_eq_or_of_lt h, Nat.shiftLeft_eq, Nat.add_comm, Nat.mul_comm]

theorem toNat_low_or_high (b v : UInt8) :
    (b &&& (0x0F : UInt8) ||| v <<< (4 : UInt8)).toNat = b.toNat % 16 + v.toNat % 16 * 16 := by
  have hlow : (b &&& 0x0F : UInt8).toNat = b.toNat % 16 := by
    rw [UInt8.toNat_and]
    exact Nat.and_two_pow_sub_one_eq_mod b.toNat 4
  have hhigh : (v <<< 4 : UInt8).toNat = (v.toNat % 16) <<< 4 := by
    rw [UInt8.toNat_shiftLeft, Nat.shiftLeft_eq, Nat.shiftLeft_eq]
    change v.toNat * 16 % 256 = v.toNat % 16 * 16
    omega
  have hlt : b.toNat % 16 < 2 ^ 4 := Nat.mod_lt _ (by decide)
  rw [UInt8.toNat_or, hlow, hhigh, Nat.or_comm, ← Nat.shiftLeft_add_eq_or_of_lt hlt,
    Nat.shiftLeft_eq]
  omega

theorem toNat_high_or_low (b v : UInt8) :
    (b &&& 0xF0 ||| v &&& 0x0F : UInt8).toNat = b.toNat / 16 * 16 + v.toNat % 16 := by
  have hlow : (v &&& 0x0F : UInt8).toNat = v.toNat % 16 := by
    rw [UInt8.toNat_and]
    exact Nat.and_two_pow_sub_one_eq_mod v.toNat 4
  have hhigh : (b &&& 0xF0 : UInt8).toNat = (b.toNat / 16) <<< 4 := by
    have hsplit : (b &&& 0xF0 : UInt8) = (b >>> 4) <<< 4 := by
      apply UInt8.toBitVec_inj.mp
      ext i hi
      interval_cases i <;> simp
    rw [hsplit, UInt8.toNat_shiftLeft, UInt8.toNat_shiftRight, Nat.shiftLeft_eq, Nat.shiftLeft_eq,
      Nat.shiftRight_eq_div_pow]
    have hb := b.toNat_lt
    change b.toNat / 16 * 16 % 256 = b.toNat / 16 * 16
    omega
  have hlt : v.toNat % 16 < 2 ^ 4 := Nat.mod_lt _ (by decide)
  rw [UInt8.toNat_or, hlow, hhigh, ← Nat.shiftLeft_add_eq_or_of_lt hlt, Nat.shiftLeft_eq]

end Bits

def word (m : Cells) (i : Nat) : Nat := (m i).toNat + 256 * (m (i + 1)).toNat

def putWord (m : Cells) (i v : Nat) : Cells :=
  Function.update (Function.update m i (UInt8.ofNat v)) (i + 1) (UInt8.ofNat (v / 256))

def dword (m : Cells) (i : Nat) : Nat := word m i + 65536 * word m (i + 2)

def putDword (m : Cells) (i v : Nat) : Cells :=
  putWord (putWord m i v) (i + 2) (v / 65536)

/-- Entry `n` of a table of 12-bit numbers. -/
def twelve (m : Cells) (n : Nat) : Nat :=
  if n % 2 = 1 then word m (n + n / 2) / 16 else word m (n + n / 2) % 4096

/-- The first of the two bytes that entry `n` lies in, once it holds `v`. -/
def lowTwelve (b : UInt8) (n v : Nat) : UInt8 :=
  if n % 2 = 1 then UInt8.ofNat (b.toNat % 16 + v % 16 * 16) else UInt8.ofNat v

def highTwelve (b : UInt8) (n v : Nat) : UInt8 :=
  if n % 2 = 1 then UInt8.ofNat (v / 16) else UInt8.ofNat (b.toNat / 16 * 16 + v / 256 % 16)

def putLowTwelve (m : Cells) (n v : Nat) : Cells :=
  Function.update m (n + n / 2) (lowTwelve (m (n + n / 2)) n v)

def putTwelve (m : Cells) (n v : Nat) : Cells :=
  Function.update (putLowTwelve m n v) (n + n / 2 + 1) (highTwelve (m (n + n / 2 + 1)) n v)

section Tables
variable (m : Cells)

theorem word_congr {m m' : Cells} {i : Nat} (h : m' i = m i) (h' : m' (i + 1) = m (i + 1)) :
    word m' i = word m i := by
  rw [word, word, h, h']

theorem word_lt (i : Nat) : word m i < 65536 := by
  have hlow := (m i).toNat_lt
  have hhigh := (m (i + 1)).toNat_lt
  unfold word
  omega

theorem twelve_lt (n : Nat) : twelve m n < 4096 := by
  have hword := word_lt m (n + n / 2)
  unfold twelve
  split <;> omega

theorem putWord_of_ne {i j : Nat} (h : j ≠ i) (h' : j ≠ i + 1) (v : Nat) :
    putWord m i v j = m j := by
  rw [putWord, Function.update_of_ne h', Function.update_of_ne h]

theorem putDword_of_apart {i j : Nat} (h : j < i ∨ i + 4 ≤ j) (v : Nat) :
    putDword m i v j = m j := by
  rw [putDword, putWord_of_ne _ (by omega) (by omega), putWord_of_ne _ (by omega) (by omega)]

theorem putWord_shift {m' : Cells} {o j : Nat} (h : m' j = m (o + j)) (i v : Nat) :
    putWord m' i v j = putWord m (o + i) v (o + j) := by
  simp only [putWord, Function.update_apply, h, Nat.add_assoc, Nat.add_left_cancel_iff]

theorem putDword_shift {m' : Cells} {o j : Nat} (h : m' j = m (o + j)) (i v : Nat) :
    putDword m' i v j = putDword m (o + i) v (o + j) :=
  putWord_shift _ (putWord_shift _ h i v) (i + 2) (v / 65536)

theorem word_putWord (i v : Nat) : word (putWord m i v) i = v % 65536 := by
  simp [word, putWord]
  omega

theorem word_putWord_of_apart {i j : Nat} (h : j + 2 ≤ i ∨ i + 2 ≤ j) (v : Nat) :
    word (putWord m i v) j = word m j := by
  exact word_congr (putWord_of_ne m (by omega) (by omega) v)
    (putWord_of_ne m (by omega) (by omega) v)

theorem dword_putDword (i v : Nat) : dword (putDword m i v) i = v % 2 ^ 32 := by
  rw [dword, putDword, word_putWord, word_putWord_of_apart _ (.inl le_rfl), word_putWord]
  omega

theorem dword_putDword_of_apart {i j : Nat} (h : j + 4 ≤ i ∨ i + 4 ≤ j) (v : Nat) :
    dword (putDword m i v) j = dword m j := by
  simp only [dword, putDword]
  rw [word_putWord_of_apart _ (by omega), word_putWord_of_apart _ (by omega),
    word_putWord_of_apart _ (by omega), word_putWord_of_apart _ (by omega)]

theorem twelve_putTwelve (n v : Nat) : twelve (putTwelve m n v) n = v % 4096 := by
  have hlow : putTwelve m n v (n + n / 2) = lowTwelve (m (n + n / 2)) n v := by
    simp [putTwelve, putLowTwelve]
  have hhigh : putTwelve m n v (n + n / 2 + 1) = highTwelve (m (n + n / 2 + 1)) n v := by
    simp [putTwelve]
  have hb := (m (n + n / 2)).toNat_lt
  have hb' := (m (n + n / 2 + 1)).toNat_lt
  simp only [twelve, word, hlow, hhigh, lowTwelve, highTwelve]
  split
  · simp only [UInt8.toNat_ofNat']
    omega
  · simp only [UInt8.toNat_ofNat']
    omega

theorem twelve_putLowTwelve_of_ne {n k : Nat} (h : k ≠ n) (v : Nat) :
    twelve (putLowTwelve m n v) k = twelve m k := by
  by_cases hshared : k + k / 2 + 1 = n + n / 2
  · -- entry `n` is the odd one of its pair, and keeps the low half of the shared byte
    have hodd : n % 2 = 1 := by omega
    have hfst : putLowTwelve m n v (k + k / 2) = m (k + k / 2) :=
      Function.update_of_ne (by omega) _ _
    have hsnd : (putLowTwelve m n v (k + k / 2 + 1)).toNat % 16 =
        (m (k + k / 2 + 1)).toNat % 16 := by
      simp only [putLowTwelve, hshared, Function.update_self, lowTwelve, hodd, if_true,
        UInt8.toNat_ofNat']
      omega
    have heven : ¬k % 2 = 1 := by omega
    have hb := (m (k + k / 2)).toNat_lt
    simp only [twelve, heven, if_false, word, hfst]
    omega
  · have hword : word (putLowTwelve m n v) (k + k / 2) = word m (k + k / 2) :=
      word_congr (Function.update_of_ne (by omega) _ _) (Function.update_of_ne hshared _ _)
    simp only [twelve, hword]

theorem twelve_putLowTwelve_ne_zero {n v : Nat} (hv : 0 < v) (h : v < twelve m n) :
    twelve (putLowTwelve m n v) n ≠ 0 := by
  have hfst : putLowTwelve m n v (n + n / 2) = lowTwelve (m (n + n / 2)) n v := by
    simp [putLowTwelve]
  have hsnd : putLowTwelve m n v (n + n / 2 + 1) = m (n + n / 2 + 1) :=
    Function.update_of_ne (by omega) _ _
  have hlow := (m (n + n / 2)).toNat_lt
  simp only [twelve, word] at h
  simp only [twelve, word, hfst, hsnd, lowTwelve]
  split at h
  · rw [if_pos ‹_›, if_pos ‹_›, UInt8.toNat_ofNat']
    omega
  · rw [if_neg ‹_›, if_neg ‹_›, UInt8.toNat_ofNat']
    omega

theorem twelve_putTwelve_of_ne {n k : Nat} (h : k ≠ n) (v : Nat) :
    twelve (putTwelve m n v) k = twelve m k := by
  rw [← twelve_putLowTwelve_of_ne m h v]
  by_cases hshared : k + k / 2 = n + n / 2 + 1
  · -- entry `n` is the even one of its pair, and keeps the high half of the shared byte
    have heven : ¬n % 2 = 1 := by omega
    have hodd : k % 2 = 1 := by omega
    have hkeep : putLowTwelve m n v (n + n / 2 + 1) = m (n + n / 2 + 1) :=
      Function.update_of_ne (by omega) _ _
    have hfst : (putTwelve m n v (k + k / 2)).toNat / 16 =
        (putLowTwelve m n v (k + k / 2)).toNat / 16 := by
      have hb := (m (n + n / 2 + 1)).toNat_lt
      simp only [hshared, putTwelve, Function.update_self, hkeep, highTwelve, heven, if_false,
        UInt8.toNat_ofNat']
      omega
    have hsnd : putTwelve m n v (k + k / 2 + 1) = putLowTwelve m n v (k + k / 2 + 1) :=
      Function.update_of_ne (by omega) _ _
    simp only [twelve, hodd, if_true, word, hsnd]
    omega
  · have hword : word (putTwelve m n v) (k + k / 2) = word (putLowTwelve m n v) (k + k / 2) :=
      word_congr (Function.update_of_ne hshared _ _) (Function.update_of_ne (by omega) _ _)
    simp only [twelve, hword]

end Tables

end Packed
