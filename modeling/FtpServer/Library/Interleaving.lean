import FtpServer.Library.Interaction
import FtpServer.Library.Transition

/-! A program that runs beside other parties. Its calls act on a shared state one at a time,
and in front of each of them the others may take any number of steps of their own. -/

namespace Interaction
open Transition Relation

section Interleaving
variable {Q : Type} {A : Q → Type} {φ α W : Type} (act : W → Event Q A → W → Prop)
  (other : W → W → Prop)

/-- The program makes its next call, or the others take a step. -/
def Interleaved (c : Prog Q A φ α × W) (label : Option (Event Q A)) (c' : Prog Q A φ α × W) :
    Prop :=
  match label with
  | none => c'.1 = c.1 ∧ other c.2 c'.2
  | some e => ∃ k, c.1 = .ask e.call k ∧ c'.1 = k e.answer ∧ act c.2 e c'.2

/-- `inv` holds from here on, in whatever order the steps come. -/
def Keeps (inv : Prog Q A φ α → W → Prop) : Prog Q A φ α → W → Prop
  | .ask q k, w => ∀ u, ReflTransGen other w u →
    inv (.ask q k) u ∧ ∀ a v, act u ⟨q, a⟩ v → Keeps inv (k a) v
  | .ret a, w => ∀ u, ReflTransGen other w u → inv (.ret a) u
  | .fault e, w => ∀ u, ReflTransGen other w u → inv (.fault e) u
  | .stuck, w => ∀ u, ReflTransGen other w u → inv .stuck u

variable {act other} {inv : Prog Q A φ α → W → Prop}

theorem follows_ask {q : Q} {k : A q → Prog Q A φ α} {w u : W} {a : A q}
    {labels : List (Option (Event Q A))} {c : Prog Q A φ α × W} (hact : act w ⟨q, a⟩ u)
    (h : Follows (Interleaved act other) (k a, u) labels c) :
    Follows (Interleaved act other) (.ask q k, w) (some ⟨q, a⟩ :: labels) c :=
  ⟨(k a, u), ⟨k, rfl, rfl, hact⟩, h⟩

theorem follows_other {p : Prog Q A φ α} {w u : W} {labels : List (Option (Event Q A))}
    {c : Prog Q A φ α × W} (hother : other w u)
    (h : Follows (Interleaved act other) (p, u) labels c) :
    Follows (Interleaved act other) (p, w) (none :: labels) c :=
  ⟨(p, u), ⟨rfl, hother⟩, h⟩

theorem keeps_call (q : Q) (f : A q → Prog Q A φ α) (w : W) :
    Keeps act other inv (call q >>= f) w ↔ ∀ u, ReflTransGen other w u →
      inv (call q >>= f) u ∧ ∀ a v, act u ⟨q, a⟩ v → Keeps act other inv (f a) v := Iff.rfl

theorem Keeps.now {p : Prog Q A φ α} {w : W} (h : Keeps act other inv p w) : inv p w := by
  cases p with
  | ask q k => exact (h w .refl).1
  | ret a => exact h w .refl
  | fault e => exact h w .refl
  | stuck => exact h w .refl

theorem Keeps.others {p : Prog Q A φ α} {w u : W} (h : Keeps act other inv p w)
    (hu : ReflTransGen other w u) : Keeps act other inv p u := by
  cases p with
  | ask q k =>
    intro v hv
    exact h v (hu.trans hv)
  | ret a =>
    intro v hv
    exact h v (hu.trans hv)
  | fault e =>
    intro v hv
    exact h v (hu.trans hv)
  | stuck =>
    intro v hv
    exact h v (hu.trans hv)

theorem Keeps.step {c c' : Prog Q A φ α × W} {label : Option (Event Q A)}
    (h : Keeps act other inv c.1 c.2) (hstep : Interleaved act other c label c') :
    Keeps act other inv c'.1 c'.2 := by
  cases label with
  | none =>
    obtain ⟨hp, hw⟩ := hstep
    rw [hp]
    exact h.others (.single hw)
  | some e =>
    obtain ⟨k, hask, hnext, hact⟩ := hstep
    rw [hask] at h
    rw [hnext]
    exact (h c.2 .refl).2 e.answer c'.2 hact

theorem Keeps.follows {c c' : Prog Q A φ α × W} {labels : List (Option (Event Q A))}
    (h : Keeps act other inv c.1 c.2) (hrun : Follows (Interleaved act other) c labels c') :
    inv c'.1 c'.2 :=
  (hrun.invariant (fun c => Keeps act other inv c.1 c.2)
    (fun _ _ _ hkeeps hstep => hkeeps.step hstep) h).now

end Interleaving

end Interaction
