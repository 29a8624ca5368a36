import Mathlib.Tactic

/-! Writing over a list from a position on, as a file is written: what stood there is
replaced, what stands behind stays. -/

namespace Overlay
variable {α : Type}

def overlay (content : List α) (n : Nat) (data : List α) : List α :=
  content.take n ++ data ++ content.drop (n + data.length)

@[simp] theorem overlay_nil (content : List α) (n : Nat) : overlay content n [] = content := by
  simp [overlay]

theorem overlay_zero (content data : List α) :
    overlay content 0 data = data ++ content.drop data.length := by
  simp [overlay]

theorem length_overlay {content : List α} {n : Nat} (h : n ≤ content.length) (data : List α) :
    (overlay content n data).length = max content.length (n + data.length) := by
  simp only [overlay, List.length_append, List.length_take, List.length_drop]
  omega

theorem getD_overlay {content : List α} {n : Nat} (h : n ≤ content.length) (data : List α)
    (i : Nat) (d : α) : (overlay content n data).getD i d =
      if n ≤ i ∧ i < n + data.length then data.getD (i - n) d else content.getD i d := by
  simp only [overlay, List.append_assoc, List.getD_eq_getElem?_getD]
  have htake : (content.take n).length = n := List.length_take_of_le h
  by_cases hlow : i < n
  · rw [List.getElem?_append_left (by omega), List.getElem?_take_of_lt hlow, if_neg (by omega)]
  · rw [List.getElem?_append_right (by omega), htake]
    by_cases hhigh : i < n + data.length
    · rw [List.getElem?_append_left (by omega), if_pos ⟨by omega, hhigh⟩]
    · rw [List.getElem?_append_right (by omega), List.getElem?_drop, if_neg (by omega)]
      congr 2
      omega

theorem overlay_append {content : List α} {n : Nat} (h : n ≤ content.length)
    (first second : List α) :
    overlay (overlay content n first) (n + first.length) second =
      overlay content n (first ++ second) := by
  have hlen : (content.take n ++ first).length = n + first.length := by
    simp only [List.length_append, List.length_take]
    omega
  unfold overlay
  rw [List.take_append_of_le_length (by omega), List.take_of_length_le (by omega),
    List.drop_append, hlen, List.drop_of_length_le (by omega), List.drop_drop]
  simp only [List.length_append, List.nil_append, List.append_assoc]
  congr 4
  omega

theorem overlay_zero_eq_iff (content data : List α) :
    overlay content 0 data = data ↔ content.length ≤ data.length := by
  simp [overlay_zero]

end Overlay
