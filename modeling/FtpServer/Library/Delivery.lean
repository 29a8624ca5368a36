import Mathlib.Tactic

/-! Data handed over in blocks, each with the number of elements the receiver took of it. -/

namespace Delivery
variable {α : Type}

def offered (blocks : List (List α × Nat)) : List α := blocks.flatMap Prod.fst

def delivered (blocks : List (List α × Nat)) : List α := blocks.flatMap fun b => b.1.take b.2

@[simp] theorem offered_nil : offered ([] : List (List α × Nat)) = [] := rfl

@[simp] theorem offered_cons (b : List α × Nat) (blocks : List (List α × Nat)) :
    offered (b :: blocks) = b.1 ++ offered blocks := rfl

@[simp] theorem offered_append (blocks blocks' : List (List α × Nat)) :
    offered (blocks ++ blocks') = offered blocks ++ offered blocks' := List.flatMap_append

@[simp] theorem delivered_nil : delivered ([] : List (List α × Nat)) = [] := rfl

@[simp] theorem delivered_cons (b : List α × Nat) (blocks : List (List α × Nat)) :
    delivered (b :: blocks) = b.1.take b.2 ++ delivered blocks := rfl

theorem length_delivered_le (blocks : List (List α × Nat)) :
    (delivered blocks).length ≤ (offered blocks).length := by
  induction blocks with
  | nil => simp
  | cons b blocks ih =>
    simp only [delivered_cons, offered_cons, List.length_append, List.length_take]
    omega

theorem delivered_eq_offered_iff (blocks : List (List α × Nat)) :
    delivered blocks = offered blocks ↔ ∀ b ∈ blocks, b.1.length ≤ b.2 := by
  induction blocks with
  | nil => simp
  | cons b blocks ih =>
    have hle := length_delivered_le blocks
    simp only [delivered_cons, offered_cons, List.forall_mem_cons, ← ih]
    constructor
    · intro h
      have hlen := congrArg List.length h
      simp only [List.length_append, List.length_take] at hlen
      have hb : b.1.length ≤ b.2 := by omega
      rw [List.take_of_length_le hb] at h
      exact ⟨hb, List.append_cancel_left h⟩
    · intro h
      rw [List.take_of_length_le h.1, h.2]

theorem delivered_eq_iff {blocks : List (List α × Nat)} {target : List α}
    (h : offered blocks <+: target) :
    delivered blocks = target ↔ offered blocks = target ∧ ∀ b ∈ blocks, b.1.length ≤ b.2 := by
  rw [← delivered_eq_offered_iff]
  constructor
  · intro hall
    have hle := length_delivered_le blocks
    rw [hall] at hle
    have hoffered := h.eq_of_length_le hle
    exact ⟨hoffered, hall.trans hoffered.symm⟩
  · intro hall
    exact hall.2.trans hall.1

theorem delivered_cons_eq_iff {b : List α × Nat} {blocks : List (List α × Nat)}
    {target : List α} (h : offered blocks <+: target) :
    delivered (b :: blocks) = b.1 ++ target ↔ b.1.length ≤ b.2 ∧ delivered blocks = target := by
  have hcons : offered (b :: blocks) <+: b.1 ++ target := (List.prefix_append_right_inj b.1).mpr h
  rw [delivered_eq_iff hcons, delivered_eq_iff h, offered_cons, List.append_cancel_left_eq,
    List.forall_mem_cons]
  tauto

end Delivery
