import Mathlib.Tactic

/-! The components of a list cut at a separator: the non-empty runs between the
separators. They are what is left of a path when its slashes are forgotten. -/

namespace Components

section Joining
variable {α : Type} (sep : α)

def Proper (cs : List (List α)) : Prop := ∀ c ∈ cs, c ≠ [] ∧ sep ∉ c

def join (cs : List (List α)) : List α := [sep].intercalate cs

@[simp] theorem join_nil : join sep [] = [] := rfl

@[simp] theorem join_singleton (c : List α) : join sep [c] = c := by
  simp [join]

theorem join_append {cs ds : List (List α)} (hc : cs ≠ []) (hd : ds ≠ []) :
    join sep (cs ++ ds) = join sep cs ++ sep :: join sep ds := by
  induction cs with
  | nil => contradiction
  | cons c cs ih =>
    obtain ⟨d, ds, rfl⟩ := List.exists_cons_of_ne_nil hd
    cases cs with
    | nil => simp [join]
    | cons c' cs =>
      have hrest := ih (by simp)
      simp_all [join]

variable {sep}

theorem Proper.append {cs ds : List (List α)} (hc : Proper sep cs) (hd : Proper sep ds) :
    Proper sep (cs ++ ds) := by
  intro c h
  rcases List.mem_append.mp h with h | h
  · exact hc c h
  · exact hd c h

theorem Proper.of_append {cs ds : List (List α)} (h : Proper sep (cs ++ ds)) :
    Proper sep cs ∧ Proper sep ds :=
  ⟨fun c hc => h c (by simp [hc]), fun d hd => h d (by simp [hd])⟩

theorem exists_last_sep {l : List α} (h : sep ∈ l) : ∃ a b, l = a ++ sep :: b ∧ sep ∉ b := by
  induction l with
  | nil => cases h
  | cons x l ih =>
    by_cases hl : sep ∈ l
    · obtain ⟨a, b, rfl, hb⟩ := ih hl
      exact ⟨x :: a, b, rfl, hb⟩
    · have hx : sep = x := (List.mem_cons.mp h).resolve_right hl
      exact ⟨[], l, by rw [hx]; rfl, hl⟩

end Joining

section Splitting
variable {α : Type} [DecidableEq α] (sep : α)

def comps (l : List α) : List (List α) := (l.splitOn sep).filter (· ≠ [])

@[simp] theorem comps_nil : comps sep ([] : List α) = [] := by
  simp [comps]

theorem comps_append_sep (a b : List α) :
    comps sep (a ++ sep :: b) = comps sep a ++ comps sep b := by
  unfold comps List.splitOn
  rw [List.splitOnP_append_cons a b (by simp), List.filter_append]

@[simp] theorem comps_cons_sep (b : List α) : comps sep (sep :: b) = comps sep b := by
  simpa using comps_append_sep sep [] b

variable {sep}

theorem comps_of_not_mem {l : List α} (h : sep ∉ l) :
    comps sep l = if l = [] then [] else [l] := by
  rw [comps, List.splitOn_eq_singleton h]
  by_cases hl : l = [] <;> simp [hl]

theorem comps_join {cs : List (List α)} (h : Proper sep cs) : comps sep (join sep cs) = cs := by
  induction cs with
  | nil => simp
  | cons c cs ih =>
    have hc := h c (by simp)
    have hcs : Proper sep cs := fun d hd => h d (by simp [hd])
    cases cs with
    | nil => simp [comps_of_not_mem hc.2, hc.1]
    | cons d cs =>
      have hsplit := @join_append _ sep [c] (d :: cs) (by simp) (by simp)
      rw [List.singleton_append] at hsplit
      rw [hsplit, join_singleton, comps_append_sep, ih hcs, comps_of_not_mem hc.2, if_neg hc.1]
      rfl

end Splitting

end Components
