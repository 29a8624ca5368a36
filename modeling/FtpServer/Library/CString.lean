import Mathlib.Tactic
import Mathlib.Data.List.TakeWhile
import Mathlib.Data.Nat.Digits.Lemmas

/-! C strings over bytes, as `string.h`, `stdlib.h` and the `printf` conversions
read and write them. A region of memory is the list of its bytes; the string at
its start ends before the first NUL. -/

namespace CString

abbrev Byte := UInt8
abbrev Bytes := List Byte

def bytes (s : String) : Bytes := s.toList.map Char.toUInt8

def byte (c : Char) : Byte := c.toUInt8

def cstr (mem : Bytes) : Bytes := mem.takeWhile (· ≠ 0)

def strchr (c : Byte) : Bytes → Option Bytes
  | [] => none
  | b :: s => if b = c then some (b :: s) else strchr c s

/-- One token and what `strtok` keeps for its next call. -/
def strtok (delim s : Bytes) : Option (Bytes × Bytes) :=
  match s.dropWhile (· ∈ delim) with
  | [] => none
  | b :: s =>
    some ((b :: s).takeWhile (· ∉ delim), ((b :: s).dropWhile (· ∉ delim)).tail)

def isspace (b : Byte) : Bool := b = 32 || (9 ≤ b && b ≤ 13)

def isdigit (b : Byte) : Bool := 48 ≤ b && b ≤ 57

/-- The value of the leading digits of `s`, on top of the value `n` read so far. -/
def digitsValue (n : Nat) : Bytes → Nat
  | [] => n
  | b :: s => if isdigit b then digitsValue (10 * n + (b.toNat - 48)) s else n

/-- `atoi` on a 32-bit `int`; out of range it stops at the limits, as `strtol` does. -/
def atoi (s : Bytes) : Int :=
  match s.dropWhile isspace with
  | [] => 0
  | b :: s =>
    if b = byte '-' then max (-2 ^ 31) (-(digitsValue 0 s : Int))
    else if b = byte '+' then min (2 ^ 31 - 1) (digitsValue 0 s : Int)
    else min (2 ^ 31 - 1) (digitsValue 0 (b :: s) : Int)

def Decimal (n : Nat) (s : Bytes) : Prop :=
  s ≠ [] ∧ (∀ b ∈ s, isdigit b) ∧ digitsValue 0 s = n

/-- The `%u` conversion. -/
def showNat (n : Nat) : Bytes :=
  if n = 0 then [byte '0'] else (Nat.digits 10 n).reverse.map (fun d => UInt8.ofNat (48 + d))

/-- The `%d` conversion. -/
def showInt : Int → Bytes
  | .ofNat n => showNat n
  | .negSucc n => byte '-' :: showNat (n + 1)

def padLeft (width : Nat) (s : Bytes) : Bytes :=
  List.replicate (width - s.length) (byte ' ') ++ s

@[simp] theorem bytes_eq_nil (s : String) : bytes s = [] ↔ s = "" := by
  simp [bytes]

theorem strchr_eq_some {c : Byte} {s r : Bytes} (h : strchr c s = some r) :
    ∃ pre, s = pre ++ r ∧ r.head? = some c ∧ c ∉ pre := by
  induction s with
  | nil => cases h
  | cons b s ih =>
    simp only [strchr] at h
    split at h
    · cases h
      exact ⟨[], rfl, by simp_all, by simp⟩
    · obtain ⟨pre, rfl, hr, hc⟩ := ih h
      exact ⟨b :: pre, rfl, hr, by simp_all [eq_comm]⟩

theorem showNat_length_le {n k : Nat} (hk : 0 < k) (hn : n < 10 ^ k) :
    (showNat n).length ≤ k := by
  unfold showNat
  split
  · simp
    omega
  · simpa using (Nat.digits_length_le_iff (by omega) n).mpr hn

theorem showInt_length_le {i : Int} {k : Nat} (hk : 0 < k) (hi : i.natAbs < 10 ^ k) :
    (showInt i).length ≤ k + 1 := by
  cases i with
  | ofNat n => exact le_trans (showNat_length_le hk hi) (by omega)
  | negSucc n =>
    have hlen := showNat_length_le hk (n := n + 1) hi
    simpa [showInt] using hlen

theorem atoi_range (s : Bytes) : -2 ^ 31 ≤ atoi s ∧ atoi s < 2 ^ 31 := by
  unfold atoi
  split
  · omega
  · split
    · omega
    · split <;> omega

theorem atoi_decimal {n : Nat} {s : Bytes} (h : Decimal n s) :
    atoi s = min (2 ^ 31 - 1) (n : Int) := by
  obtain ⟨hs, hdigits, hn⟩ := h
  cases s with
  | nil => exact absurd rfl hs
  | cons b s =>
    have hb : isdigit b = true := hdigits b (by simp)
    have hb' : 48 ≤ b.toNat ∧ b.toNat ≤ 57 := by
      simpa [isdigit, UInt8.le_iff_toNat_le] using hb
    have hspace : isspace b = false := by
      simp [isspace, UInt8.le_iff_toNat_le, ← UInt8.toNat_inj]
      omega
    have hminus : b ≠ byte '-' := by
      rintro rfl
      exact absurd hb'.1 (by decide)
    have hplus : b ≠ byte '+' := by
      rintro rfl
      exact absurd hb'.1 (by decide)
    rw [atoi, List.dropWhile_cons_of_neg (by simp [hspace])]
    simp only [hminus, hplus, if_false, hn]

end CString
