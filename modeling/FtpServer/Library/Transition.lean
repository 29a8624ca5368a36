import Mathlib.Tactic

/-! Labelled transition systems, given by their step relation. The label of a step
is whatever an observer records of it: a request, a call with its answer. -/

namespace Transition
variable {W L : Type} {step step' : W → L → W → Prop}

/-- `ls` leads from `w` to `w'`, one step for each label. -/
def Follows (step : W → L → W → Prop) : W → List L → W → Prop
  | w, [], w' => w' = w
  | w, l :: ls, w' => ∃ u, step w l u ∧ Follows step u ls w'

/-- The steps taken where `cond` holds of the state before them. -/
def Where (cond : W → L → Prop) (step : W → L → W → Prop) (w : W) (l : L) (w' : W) : Prop :=
  cond w l ∧ step w l w'

@[simp] theorem follows_nil (w w' : W) : Follows step w [] w' ↔ w' = w := Iff.rfl

@[simp] theorem follows_cons (w w' : W) (l : L) (ls : List L) :
    Follows step w (l :: ls) w' ↔ ∃ u, step w l u ∧ Follows step u ls w' := Iff.rfl

theorem follows_append (w w' : W) (ls ls' : List L) :
    Follows step w (ls ++ ls') w' ↔ ∃ u, Follows step w ls u ∧ Follows step u ls' w' := by
  induction ls generalizing w with
  | nil => simp
  | cons l ls ih =>
    simp only [List.cons_append, follows_cons, ih]
    constructor
    · rintro ⟨u, hu, v, hv, h⟩
      exact ⟨v, ⟨u, hu, hv⟩, h⟩
    · rintro ⟨v, ⟨u, hu, hv⟩, h⟩
      exact ⟨u, hu, v, hv, h⟩

theorem Follows.snoc {w u w' : W} {l : L} {ls : List L} (h : Follows step w ls u)
    (hstep : step u l w') : Follows step w (ls ++ [l]) w' :=
  (follows_append w w' ls [l]).mpr ⟨u, h, w', hstep, rfl⟩

theorem Follows.mono (h : ∀ w l w', step w l w' → step' w l w') {w w' : W} {ls : List L}
    (hf : Follows step w ls w') : Follows step' w ls w' := by
  induction ls generalizing w with
  | nil => exact hf
  | cons l ls ih =>
    obtain ⟨u, hu, hf⟩ := hf
    exact ⟨u, h w l u hu, ih hf⟩

theorem Follows.invariant (inv : W → Prop) (h : ∀ w l w', inv w → step w l w' → inv w')
    {w w' : W} {ls : List L} (hf : Follows step w ls w') (hw : inv w) : inv w' := by
  induction ls generalizing w with
  | nil =>
    cases hf
    exact hw
  | cons l ls ih =>
    obtain ⟨u, hu, hf⟩ := hf
    exact ih hf (h w l u hw hu)

theorem Follows.forall_mem {p : L → Prop} (h : ∀ w l w', step w l w' → p l) {w w' : W}
    {ls : List L} (hf : Follows step w ls w') : ∀ l ∈ ls, p l := by
  induction ls generalizing w with
  | nil => simp
  | cons l ls ih =>
    obtain ⟨u, hu, hf⟩ := hf
    exact List.forall_mem_cons.mpr ⟨h w l u hu, ih hf⟩

theorem Follows.simulation {V : Type} (rel : W → V → Prop) (next : V → L → V)
    (h : ∀ w l w' v, rel w v → step w l w' → rel w' (next v l))
    {w w' : W} {v : V} {ls : List L} (hf : Follows step w ls w') (hw : rel w v) :
    rel w' (ls.foldl next v) := by
  induction ls generalizing w v with
  | nil =>
    cases hf
    exact hw
  | cons l ls ih =>
    obtain ⟨u, hu, hf⟩ := hf
    exact ih hf (h w l u v hw hu)

/-- Forward simulation: when every step is matched by one with the translated label, so is
every run. -/
theorem Follows.refines {V M : Type} {abstract : V → M → V → Prop} (rel : W → V → Prop)
    (f : L → M)
    (h : ∀ w l w' v, rel w v → step w l w' → ∃ v', abstract v (f l) v' ∧ rel w' v')
    {w w' : W} {v : V} {ls : List L} (hf : Follows step w ls w') (hw : rel w v) :
    ∃ v', Follows abstract v (ls.map f) v' ∧ rel w' v' := by
  induction ls generalizing w v with
  | nil =>
    cases hf
    exact ⟨v, rfl, hw⟩
  | cons l ls ih =>
    obtain ⟨u, hu, hf⟩ := hf
    obtain ⟨v', hstep, hrel⟩ := h w l u v hw hu
    obtain ⟨v'', hrest, hrel'⟩ := ih hf hrel
    exact ⟨v'', ⟨v', hstep, hrest⟩, hrel'⟩

theorem follows_filter {p : L → Bool} (hp : ∀ w l w', p l = false → (step w l w' ↔ w' = w))
    (w w' : W) (ls : List L) : Follows step w (ls.filter p) w' ↔ Follows step w ls w' := by
  induction ls generalizing w with
  | nil => simp
  | cons l ls ih =>
    cases hpl : p l with
    | true => simp [hpl, ih]
    | false => simp [hpl, ih, hp _ _ _ hpl]

/-- The system with a note of whether some label so far was marked. -/
def Noting (mark : L → Bool) (step : W → L → W → Prop) (w : W × Bool) (l : L)
    (w' : W × Bool) : Prop :=
  step w.1 l w'.1 ∧ w'.2 = (w.2 || mark l)

theorem follows_noting {mark : L → Bool} (w w' : W × Bool) (ls : List L) :
    Follows (Noting mark step) w ls w' ↔
      Follows step w.1 ls w'.1 ∧ w'.2 = (w.2 || ls.any mark) := by
  induction ls generalizing w with
  | nil => simp [Prod.ext_iff]
  | cons l ls ih =>
    simp only [follows_cons, ih, List.any_cons]
    constructor
    · rintro ⟨u, ⟨hstep, hnote⟩, hrest, hend⟩
      exact ⟨⟨u.1, hstep, hrest⟩, by rw [hend, hnote, Bool.or_assoc]⟩
    · rintro ⟨⟨u, hstep, hrest⟩, hend⟩
      exact ⟨(u, w.2 || mark l), ⟨hstep, rfl⟩, hrest, by rw [hend, Bool.or_assoc]⟩

def Deterministic (step : W → L → W → Prop) : Prop :=
  ∀ w l v v', step w l v → step w l v' → v' = v

section Deterministic
variable {cond : W → L → Prop} (hdet : Deterministic step)
include hdet

theorem Follows.unique {w v v' : W} {ls : List L} (h : Follows step w ls v)
    (h' : Follows step w ls v') : v' = v := by
  induction ls generalizing w with
  | nil => exact h'.trans h.symm
  | cons l ls ih =>
    obtain ⟨u, hu, hf⟩ := h
    obtain ⟨u', hu', hf'⟩ := h'
    have hsame : u' = u := hdet w l u u' hu hu'
    exact ih hf (hsame ▸ hf')

theorem follows_where_cons {w v w' : W} {l : L} {ls : List L} (h : step w l v) :
    Follows (Where cond step) w (l :: ls) w' ↔
      cond w l ∧ Follows (Where cond step) v ls w' := by
  constructor
  · rintro ⟨u, ⟨hcond, hu⟩, hf⟩
    have hsame : u = v := hdet w l v u h hu
    exact ⟨hcond, hsame ▸ hf⟩
  · rintro ⟨hcond, hf⟩
    exact ⟨v, ⟨hcond, h⟩, hf⟩

theorem follows_where_append {w v w' : W} {ls ls' : List L} (h : Follows step w ls v) :
    Follows (Where cond step) w (ls ++ ls') w' ↔
      Follows (Where cond step) w ls v ∧ Follows (Where cond step) v ls' w' := by
  rw [follows_append]
  constructor
  · rintro ⟨u, hu, hf⟩
    have hplain : Follows step w ls u := hu.mono (fun _ _ _ hstep => hstep.2)
    have hsame : u = v := h.unique hdet hplain
    exact ⟨hsame ▸ hu, hsame ▸ hf⟩
  · rintro ⟨hu, hf⟩
    exact ⟨v, hu, hf⟩

end Deterministic

end Transition
