import FtpServer.Library.CString

/-! What `printf` writes, `strtok` and `atoi` read back. -/

namespace CString

def digit (d : Nat) : Byte := UInt8.ofNat (48 + d)

theorem toNat_digit {d : Nat} (h : d < 10) : (digit d).toNat = 48 + d := by
  rw [digit, UInt8.toNat_ofNat', Nat.mod_eq_of_lt (by omega)]

theorem isdigit_digit {d : Nat} (h : d < 10) : isdigit (digit d) = true := by
  have hvalue := toNat_digit h
  simp [isdigit, UInt8.le_iff_toNat_le, hvalue]
  omega

theorem digitsValue_append {n : Nat} {s : Bytes} (h : ∀ b ∈ s, isdigit b) (t : Bytes) :
    digitsValue n (s ++ t) = digitsValue (digitsValue n s) t := by
  induction s generalizing n with
  | nil => rfl
  | cons b s ih =>
    have hb : isdigit b = true := h b (by simp)
    have hs : ∀ b ∈ s, isdigit b := fun c hc => h c (by simp [hc])
    simp only [List.cons_append, digitsValue, hb, if_true, ih hs]

theorem showNat_of_lt {n : Nat} (h : n < 10) : showNat n = [digit n] := by
  unfold showNat
  split
  · rename_i hzero
    subst hzero
    rfl
  · rename_i hpos
    simp [Nat.digits_of_lt 10 n hpos h, digit]

theorem showNat_of_le {n : Nat} (h : 10 ≤ n) :
    showNat n = showNat (n / 10) ++ [digit (n % 10)] := by
  have hpos : n ≠ 0 := by omega
  have hhigh : n / 10 ≠ 0 := by omega
  simp only [showNat, hpos, hhigh, if_false]
  rw [Nat.digits_def' (by decide) (by omega), List.reverse_cons, List.map_append]
  rfl

theorem decimal_showNat (n : Nat) : Decimal n (showNat n) := by
  induction n using Nat.strongRecOn with
  | ind n ih =>
    by_cases hsmall : n < 10
    · rw [showNat_of_lt hsmall]
      refine ⟨by simp, by simpa using isdigit_digit hsmall, ?_⟩
      simp [digitsValue, isdigit_digit hsmall, toNat_digit hsmall]
    · have hlast : n % 10 < 10 := Nat.mod_lt n (by decide)
      obtain ⟨hne, hdigits, hvalue⟩ := ih (n / 10) (by omega)
      rw [showNat_of_le (by omega)]
      refine ⟨by simp, ?_, ?_⟩
      · intro b hb
        rcases List.mem_append.mp hb with hb | hb
        · exact hdigits b hb
        · rw [List.mem_singleton.mp hb]
          exact isdigit_digit hlast
      · rw [digitsValue_append hdigits, hvalue]
        simp only [digitsValue, isdigit_digit hlast, if_true, toNat_digit hlast]
        omega

theorem showNat_ne_nil (n : Nat) : showNat n ≠ [] := (decimal_showNat n).1

theorem isdigit_of_mem_showNat {n : Nat} {b : Byte} (h : b ∈ showNat n) : isdigit b = true :=
  (decimal_showNat n).2.1 b h

theorem atoi_showNat {n : Nat} (h : n < 2 ^ 31) : atoi (showNat n) = n := by
  rw [atoi_decimal (decimal_showNat n)]
  omega

section Tokens
variable {delim token : Bytes}

theorem strtok_skip {d : Byte} (hd : d ∈ delim) (s : Bytes) :
    strtok delim (d :: s) = strtok delim s := by
  simp [strtok, hd]

theorem strtok_append (hne : token ≠ []) (htoken : ∀ b ∈ token, b ∉ delim) {s : Bytes}
    (hstop : ∀ d ∈ s.head?, d ∈ delim) : strtok delim (token ++ s) = some (token, s.tail) := by
  obtain ⟨b, token, rfl⟩ := List.exists_cons_of_ne_nil hne
  have hb : b ∉ delim := htoken b (by simp)
  have hall : ∀ c ∈ b :: token, decide (c ∉ delim) = true := by simpa using htoken
  have htake : s.takeWhile (· ∉ delim) = [] := by
    cases s with
    | nil => rfl
    | cons d s => simpa using hstop d rfl
  have hdrop : s.dropWhile (· ∉ delim) = s := by
    cases s with
    | nil => rfl
    | cons d s => simpa using hstop d rfl
  have hfirst : (b :: token ++ s).dropWhile (· ∈ delim) = b :: token ++ s := by simp [hb]
  have hsplit := @List.takeWhile_append_of_pos Byte _ _ s hall
  have hrest := @List.dropWhile_append_of_pos Byte _ _ s hall
  rw [htake, List.append_nil] at hsplit
  rw [hdrop] at hrest
  unfold strtok
  rw [hfirst]
  simp only [List.cons_append] at hsplit hrest ⊢
  rw [hsplit, hrest]

end Tokens

end CString
