import Mathlib.Tactic

/-! Programs that act only by calling their environment. A call `q` is answered
by a value of `A q`; the environment is free in its answers, so a program stands
for the set of its runs. A run is the list of calls with their answers and the
result; undefined behaviour is a `fault`, and a loop cut off by its iteration
bound is `stuck` and has no run at all.
What the environment promises is stated apart, as a labelled transition system
that the list of calls must follow. -/

namespace Interaction

structure Event (Q : Type) (A : Q → Type) where
  call : Q
  answer : A call

inductive Prog (Q : Type) (A : Q → Type) (φ α : Type) where
  | ret (a : α)
  | fault (e : φ)
  | stuck
  | ask (q : Q) (k : A q → Prog Q A φ α)

section Traces
variable {Q : Type} {A : Q → Type} {p : Event Q A → Prop}

def Occurs (p : Event Q A → Prop) (t : List (Event Q A)) : Prop := ∃ e ∈ t, p e

theorem not_occurs {t : List (Event Q A)} : ¬Occurs p t ↔ ∀ e ∈ t, ¬p e := by
  simp only [Occurs, not_exists, not_and]

@[simp] theorem occurs_nil : ¬Occurs p [] := by
  simp [Occurs]

@[simp] theorem occurs_cons (e : Event Q A) (t : List (Event Q A)) :
    Occurs p (e :: t) ↔ p e ∨ Occurs p t := by
  simp only [Occurs, List.mem_cons, or_and_right, exists_or, exists_eq_left]

@[simp] theorem occurs_append (t t' : List (Event Q A)) :
    Occurs p (t ++ t') ↔ Occurs p t ∨ Occurs p t' := by
  simp only [Occurs, List.mem_append, or_and_right, exists_or]

end Traces

section Programs
variable {Q : Type} {A : Q → Type} {φ α β : Type}

def Prog.bind : Prog Q A φ α → (α → Prog Q A φ β) → Prog Q A φ β
  | .ret a, f => f a
  | .fault e, _ => .fault e
  | .stuck, _ => .stuck
  | .ask q k, f => .ask q (fun a => (k a).bind f)

instance : Monad (Prog Q A φ) where
  pure := .ret
  bind := .bind

def call (q : Q) : Prog Q A φ (A q) := .ask q .ret

/-- The runs of a program: its calls with the answers they got, and its result. -/
def Runs : Prog Q A φ α → List (Event Q A) → Except φ α → Prop
  | .ret a, t, r => t = [] ∧ r = .ok a
  | .fault e, t, r => t = [] ∧ r = .error e
  | .stuck, _, _ => False
  | .ask q k, t, r => ∃ a rest, t = ⟨q, a⟩ :: rest ∧ Runs (k a) rest r

/-- Run a program against recorded calls. -/
def replay [DecidableEq Q] : Prog Q A φ α → List (Event Q A) → Option (Except φ α)
  | .ret a, [] => some (.ok a)
  | .fault e, [] => some (.error e)
  | .ask q k, ⟨q', a⟩ :: t => if h : q' = q then replay (k (h ▸ a)) t else none
  | _, _ => none

def Always (p : Prog Q A φ α) (post : List (Event Q A) → Except φ α → Prop) : Prop :=
  ∀ t r, Runs p t r → post t r

/-- What must hold after the first half of a sequential composition. -/
def Then (f : α → Prog Q A φ β) (post : List (Event Q A) → Except φ β → Prop)
    (t : List (Event Q A)) : Except φ α → Prop
  | .ok a => Always (f a) (fun rest r => post (t ++ rest) r)
  | .error e => post t (.error e)

@[simp] theorem then_ok (f : α → Prog Q A φ β) (post : List (Event Q A) → Except φ β → Prop)
    (t : List (Event Q A)) (a : α) :
    Then f post t (.ok a) ↔ Always (f a) (fun rest r => post (t ++ rest) r) := Iff.rfl

@[simp] theorem then_error (f : α → Prog Q A φ β) (post : List (Event Q A) → Except φ β → Prop)
    (t : List (Event Q A)) (e : φ) : Then f post t (.error e) ↔ post t (.error e) := Iff.rfl

theorem runs_bind (p : Prog Q A φ α) (f : α → Prog Q A φ β) (t : List (Event Q A))
    (r : Except φ β) :
    Runs (p >>= f) t r ↔
      (∃ t₁ t₂ a, t = t₁ ++ t₂ ∧ Runs p t₁ (.ok a) ∧ Runs (f a) t₂ r) ∨
      (∃ e, r = .error e ∧ Runs p t (.error e)) := by
  change Runs (p.bind f) t r ↔ _
  induction p generalizing t with
  | ret a =>
    simp only [Prog.bind, Runs]
    constructor
    · intro h
      exact .inl ⟨[], t, a, rfl, ⟨rfl, rfl⟩, h⟩
    · rintro (⟨t₁, t₂, b, rfl, ⟨rfl, hb⟩, h⟩ | ⟨e, -, -, he⟩)
      · cases hb
        exact h
      · cases he
  | fault e =>
    simp only [Prog.bind, Runs]
    constructor
    · rintro ⟨rfl, rfl⟩
      exact .inr ⟨e, rfl, rfl, rfl⟩
    · rintro (⟨t₁, t₂, b, -, ⟨-, hb⟩, -⟩ | ⟨e', rfl, rfl, he⟩)
      · cases hb
      · cases he
        exact ⟨rfl, rfl⟩
  | stuck => simp [Prog.bind, Runs]
  | ask q k ih =>
    simp only [Prog.bind, Runs]
    constructor
    · rintro ⟨a, rest, rfl, h⟩
      rcases (ih a rest).mp h with ⟨t₁, t₂, b, rfl, h₁, h₂⟩ | ⟨e, rfl, h₁⟩
      · exact .inl ⟨⟨q, a⟩ :: t₁, t₂, b, rfl, ⟨a, t₁, rfl, h₁⟩, h₂⟩
      · exact .inr ⟨e, rfl, a, rest, rfl, h₁⟩
    · rintro (⟨t₁, t₂, b, rfl, ⟨a, rest, rfl, h₁⟩, h₂⟩ | ⟨e, rfl, a, rest, rfl, h₁⟩)
      · exact ⟨a, rest ++ t₂, rfl, (ih a _).mpr (.inl ⟨rest, t₂, b, rfl, h₁, h₂⟩)⟩
      · exact ⟨a, rest, rfl, (ih a _).mpr (.inr ⟨e, rfl, h₁⟩)⟩

theorem runs_call (q : Q) (t : List (Event Q A)) (r : Except φ (A q)) :
    Runs (call q) t r ↔ ∃ a, t = [⟨q, a⟩] ∧ r = .ok a := by
  constructor
  · rintro ⟨a, rest, rfl, rfl, rfl⟩
    exact ⟨a, rfl, rfl⟩
  · rintro ⟨a, rfl, rfl⟩
    exact ⟨a, [], rfl, rfl, rfl⟩

theorem runs_bind_pure (p : Prog Q A φ α) (f : α → β) (t : List (Event Q A)) (b : β) :
    Runs (p >>= fun a => pure (f a)) t (.ok b) ↔ ∃ a, b = f a ∧ Runs p t (.ok a) := by
  rw [runs_bind]
  constructor
  · rintro (⟨t₁, t₂, a, rfl, hrun, rfl, hb⟩ | ⟨e, he, -⟩)
    · cases hb
      exact ⟨a, rfl, by simpa using hrun⟩
    · cases he
  · rintro ⟨a, rfl, hrun⟩
    exact .inl ⟨t, [], a, by simp, hrun, rfl, rfl⟩

theorem runs_of_replay [DecidableEq Q] {p : Prog Q A φ α} {t : List (Event Q A)}
    {r : Except φ α} (h : replay p t = some r) : Runs p t r := by
  induction p generalizing t with
  | ret a =>
    cases t with
    | nil => exact ⟨rfl, by simpa [replay, eq_comm] using h⟩
    | cons e t => simp [replay] at h
  | fault e =>
    cases t with
    | nil => exact ⟨rfl, by simpa [replay, eq_comm] using h⟩
    | cons e t => simp [replay] at h
  | stuck => cases t <;> simp [replay] at h
  | ask q k ih =>
    cases t with
    | nil => simp [replay] at h
    | cons e t =>
      obtain ⟨q', a⟩ := e
      unfold replay at h
      split at h
      · rename_i hq
        subst hq
        exact ⟨a, t, rfl, ih _ h⟩
      · cases h

variable {post post' : List (Event Q A) → Except φ α → Prop}

theorem Always.mono {p : Prog Q A φ α} (h : Always p post)
    (himp : ∀ t r, post t r → post' t r) : Always p post' :=
  fun t r hr => himp t r (h t r hr)

theorem runs_of_always {p : Prog Q A φ α} {t : List (Event Q A)} {r : Except φ α}
    (h : ∀ post, Always p post → post t r) : Runs p t r :=
  h (Runs p) (fun _ _ hrun => hrun)

@[simp] theorem always_pure (a : α) : Always (pure a : Prog Q A φ α) post ↔ post [] (.ok a) := by
  constructor
  · intro h
    exact h [] (.ok a) ⟨rfl, rfl⟩
  · rintro h t r ⟨rfl, rfl⟩
    exact h

@[simp] theorem always_fault (e : φ) :
    Always (.fault e : Prog Q A φ α) post ↔ post [] (.error e) := by
  constructor
  · intro h
    exact h [] (.error e) ⟨rfl, rfl⟩
  · rintro h t r ⟨rfl, rfl⟩
    exact h

@[simp] theorem always_stuck : Always (.stuck : Prog Q A φ α) post :=
  fun _ _ h => h.elim

@[simp] theorem always_call {q : Q} {post : List (Event Q A) → Except φ (A q) → Prop} :
    Always (call q) post ↔ ∀ a, post [⟨q, a⟩] (.ok a) := by
  constructor
  · intro h a
    exact h _ _ ((runs_call q _ _).mpr ⟨a, rfl, rfl⟩)
  · intro h t r hr
    obtain ⟨a, rfl, rfl⟩ := (runs_call q t r).mp hr
    exact h a

@[simp] theorem always_bind (p : Prog Q A φ α) (f : α → Prog Q A φ β)
    (post : List (Event Q A) → Except φ β → Prop) :
    Always (p >>= f) post ↔ Always p (Then f post) := by
  constructor
  · intro h t r hr
    cases r with
    | ok a =>
      intro rest s hs
      exact h _ _ ((runs_bind p f _ _).mpr (.inl ⟨t, rest, a, rfl, hr, hs⟩))
    | error e => exact h _ _ ((runs_bind p f _ _).mpr (.inr ⟨e, rfl, hr⟩))
  · intro h t r hr
    rcases (runs_bind p f t r).mp hr with ⟨t₁, t₂, a, rfl, h₁, h₂⟩ | ⟨e, rfl, h₁⟩
    · exact h t₁ (.ok a) h₁ t₂ r h₂
    · exact h t (.error e) h₁

@[simp] theorem always_ite (c : Prop) [Decidable c] (p q : Prog Q A φ α) :
    Always (if c then p else q) post ↔ (c → Always p post) ∧ (¬c → Always q post) := by
  split <;> simp_all

end Programs

end Interaction
