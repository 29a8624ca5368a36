import FtpServer.Library.Interaction
import FtpServer.Library.Transition

/-! Total correctness against an environment. The environment is a labelled
transition system over the calls; it must have an answer to every call the program
makes, and every answer it can give must lead to a result. -/

namespace Interaction
open Transition

section Total
variable {Q : Type} {A : Q → Type} {φ α β W : Type} (step : W → Event Q A → W → Prop)

/-- The weakest precondition: `post` holds of the state, the calls and the result at the
end, and the end is reached. -/
def Total : Prog Q A φ α → W → (W → List (Event Q A) → Except φ α → Prop) → Prop
  | .ret a, w, post => post w [] (.ok a)
  | .fault e, w, post => post w [] (.error e)
  | .stuck, _, _ => False
  | .ask q k, w, post =>
    (∃ a u, step w ⟨q, a⟩ u) ∧
    ∀ a u, step w ⟨q, a⟩ u → Total (k a) u (fun v t r => post v (⟨q, a⟩ :: t) r)

def Next (f : α → Prog Q A φ β) (post : W → List (Event Q A) → Except φ β → Prop) (w : W)
    (t : List (Event Q A)) : Except φ α → Prop
  | .ok a => Total step (f a) w (fun u rest r => post u (t ++ rest) r)
  | .error e => post w t (.error e)

variable {step} {post post' : W → List (Event Q A) → Except φ α → Prop}

@[simp] theorem next_ok (f : α → Prog Q A φ β)
    (post : W → List (Event Q A) → Except φ β → Prop) (w : W) (t : List (Event Q A)) (a : α) :
    Next step f post w t (.ok a) ↔ Total step (f a) w (fun u rest r => post u (t ++ rest) r) :=
  Iff.rfl

@[simp] theorem next_error (f : α → Prog Q A φ β)
    (post : W → List (Event Q A) → Except φ β → Prop) (w : W) (t : List (Event Q A)) (e : φ) :
    Next step f post w t (.error e) ↔ post w t (.error e) := Iff.rfl

theorem Total.mono {p : Prog Q A φ α} {w : W} (h : Total step p w post)
    (himp : ∀ u t r, post u t r → post' u t r) : Total step p w post' := by
  induction p generalizing w post post' with
  | ret a => exact himp w [] (.ok a) h
  | fault e => exact himp w [] (.error e) h
  | stuck => exact h
  | ask q k ih =>
    refine ⟨h.1, fun a u hu => ih a (h.2 a u hu) ?_⟩
    intro v t r hpost
    exact himp v (⟨q, a⟩ :: t) r hpost

@[simp] theorem total_pure (a : α) (w : W) :
    Total step (pure a : Prog Q A φ α) w post ↔ post w [] (.ok a) := Iff.rfl

@[simp] theorem total_fault (e : φ) (w : W) :
    Total step (.fault e : Prog Q A φ α) w post ↔ post w [] (.error e) := Iff.rfl

@[simp] theorem total_stuck (w : W) : ¬Total step (.stuck : Prog Q A φ α) w post := id

@[simp] theorem total_call {q : Q} (w : W)
    {post : W → List (Event Q A) → Except φ (A q) → Prop} :
    Total step (call q) w post ↔
      (∃ a u, step w ⟨q, a⟩ u) ∧ ∀ a u, step w ⟨q, a⟩ u → post u [⟨q, a⟩] (.ok a) := Iff.rfl

@[simp] theorem total_bind (p : Prog Q A φ α) (f : α → Prog Q A φ β) (w : W)
    (post : W → List (Event Q A) → Except φ β → Prop) :
    Total step (p >>= f) w post ↔ Total step p w (Next step f post) := by
  change Total step (p.bind f) w post ↔ _
  induction p generalizing w post with
  | ret a => simp [Prog.bind, Total]
  | fault e => simp [Prog.bind, Total]
  | stuck => simp [Prog.bind, Total]
  | ask q k ih =>
    simp only [Prog.bind, Total, ih]
    have hnext : ∀ (a : A q) (u : W), Total step (k a) u
          (Next step f (fun v t r => post v (⟨q, a⟩ :: t) r)) ↔
        Total step (k a) u (fun v t r => Next step f post v (⟨q, a⟩ :: t) r) := by
      intro a u
      have hsame : Next step f (fun v t r => post v (⟨q, a⟩ :: t) r) =
          fun v t r => Next step f post v (⟨q, a⟩ :: t) r := by
        funext v t r
        cases r <;> rfl
      rw [hsame]
    simp only [hnext]

@[simp] theorem total_ite (c : Prop) [Decidable c] (p q : Prog Q A φ α) (w : W) :
    Total step (if c then p else q) w post ↔
      (c → Total step p w post) ∧ (¬c → Total step q w post) := by
  split <;> simp_all

theorem total_call_unique {q : Q} {w u : W} {a : A q}
    (h : ∀ b v, step w ⟨q, b⟩ v ↔ b = a ∧ v = u)
    {post : W → List (Event Q A) → Except φ (A q) → Prop} :
    Total step (call q) w post ↔ post u [⟨q, a⟩] (.ok a) := by
  rw [total_call]
  constructor
  · intro hall
    exact hall.2 a u ((h a u).mpr ⟨rfl, rfl⟩)
  · intro hpost
    refine ⟨⟨a, u, (h a u).mpr ⟨rfl, rfl⟩⟩, ?_⟩
    intro b v hstep
    obtain ⟨rfl, rfl⟩ := (h b v).mp hstep
    exact hpost

theorem Total.runs {p : Prog Q A φ α} {w u : W} {t : List (Event Q A)} {r : Except φ α}
    (h : Total step p w post) (hrun : Runs p t r) (hf : Follows step w t u) : post u t r := by
  induction p generalizing w t post with
  | ret a =>
    obtain ⟨rfl, rfl⟩ := hrun
    cases hf
    exact h
  | fault e =>
    obtain ⟨rfl, rfl⟩ := hrun
    cases hf
    exact h
  | stuck => exact hrun.elim
  | ask q k ih =>
    obtain ⟨a, rest, rfl, hrest⟩ := hrun
    obtain ⟨v, hv, hf⟩ := hf
    have hpost := ih a (h.2 a v hv) hrest hf
    exact hpost

theorem Total.exists_run {p : Prog Q A φ α} {w : W} (h : Total step p w post) :
    ∃ t r u, Runs p t r ∧ Follows step w t u ∧ post u t r := by
  induction p generalizing w post with
  | ret a => exact ⟨[], .ok a, w, ⟨rfl, rfl⟩, rfl, h⟩
  | fault e => exact ⟨[], .error e, w, ⟨rfl, rfl⟩, rfl, h⟩
  | stuck => exact h.elim
  | ask q k ih =>
    obtain ⟨a, u, hu⟩ := h.1
    obtain ⟨t, r, v, hrun, hf, hpost⟩ := ih a (h.2 a u hu)
    exact ⟨⟨q, a⟩ :: t, r, v, ⟨a, t, rfl, hrun⟩, ⟨u, hu, hf⟩, hpost⟩

theorem Total.and_runs {p : Prog Q A φ α} {w : W} (h : Total step p w post)
    (hall : ∀ u t r, Runs p t r → Follows step w t u → post' u t r) :
    Total step p w (fun u t r => post u t r ∧ post' u t r) := by
  induction p generalizing w post post' with
  | ret a => exact ⟨h, hall w [] (.ok a) ⟨rfl, rfl⟩ rfl⟩
  | fault e => exact ⟨h, hall w [] (.error e) ⟨rfl, rfl⟩ rfl⟩
  | stuck => exact h
  | ask q k ih =>
    refine ⟨h.1, fun a u hu => ih a (h.2 a u hu) ?_⟩
    intro v t r hrun hf
    exact hall v (⟨q, a⟩ :: t) r ⟨a, t, rfl, hrun⟩ ⟨u, hu, hf⟩

end Total

section Calls
variable {Q : Type} {A : Q → Type} {φ α β W : Type} {kind : Q → Prop}

def Makes (kind : Q → Prop) : Prog Q A φ α → Prop
  | .ret _ | .fault _ | .stuck => True
  | .ask q k => kind q ∧ ∀ a, Makes kind (k a)

@[simp] theorem makes_pure (a : α) : Makes kind (pure a : Prog Q A φ α) := trivial

@[simp] theorem makes_call (q : Q) : Makes kind (call q : Prog Q A φ (A q)) ↔ kind q :=
  ⟨fun h => h.1, fun h => ⟨h, fun _ => trivial⟩⟩

theorem Makes.bind {p : Prog Q A φ α} {f : α → Prog Q A φ β} (h : Makes kind p)
    (hf : ∀ a, Makes kind (f a)) : Makes kind (p >>= f) := by
  change Makes kind (p.bind f)
  induction p with
  | ret a => exact hf a
  | fault e => trivial
  | stuck => trivial
  | ask q k ih => exact ⟨h.1, fun a => ih a (h.2 a)⟩

theorem Total.congr {step step' : W → Event Q A → W → Prop}
    {post : W → List (Event Q A) → Except φ α → Prop}
    (hsame : ∀ q, kind q → ∀ w a u, step' w ⟨q, a⟩ u ↔ step w ⟨q, a⟩ u)
    {p : Prog Q A φ α} {w : W} (hmakes : Makes kind p) (h : Total step p w post) :
    Total step' p w post := by
  induction p generalizing w post with
  | ret a => exact h
  | fault e => exact h
  | stuck => exact h
  | ask q k ih =>
    have hcall := hsame q hmakes.1
    obtain ⟨a, u, hu⟩ := h.1
    refine ⟨⟨a, u, (hcall w a u).mpr hu⟩, ?_⟩
    intro b v hv
    exact ih b (hmakes.2 b) (h.2 b v ((hcall w b v).mp hv))

end Calls

end Interaction
