import FtpServer.Library.Total

/-! Programs that keep a state of their own beside that of the environment they call, and
the rules of pre- and postconditions for them. A postcondition speaks of the value returned,
the state of the program and that of the environment. -/

namespace Interaction
open Transition

section Stateful
variable {Q : Type} {A : Q → Type} {φ σ α β W : Type} (step : W → Event Q A → W → Prop)

/-- However the environment answers, the program comes to its end without a fault, and
`post` holds there. -/
def Ensures (p : StateT σ (Prog Q A φ) α) (s : σ) (w : W) (post : α → σ → W → Prop) : Prop :=
  Total step (p s) w (fun u _ r => ∃ a s', r = .ok (a, s') ∧ post a s' u)

def Executes (p : StateT σ (Prog Q A φ) α) (s : σ) (w : W) (a : α) (s' : σ) (w' : W) : Prop :=
  ∃ t, Runs (p s) t (.ok (a, s')) ∧ Follows step w t w'

def request (q : Q) : StateT σ (Prog Q A φ) (A q) := fun s => do
  let a ← call q
  pure (a, s)

/-- A loop cut off by its bound. -/
def stuck : StateT σ (Prog Q A φ) α := fun _ => .stuck

variable {step} {s : σ} {w : W}

theorem Ensures.mono {p : StateT σ (Prog Q A φ) α} {post post' : α → σ → W → Prop}
    (h : Ensures step p s w post) (himp : ∀ a s' w', post a s' w' → post' a s' w') :
    Ensures step p s w post' := by
  apply Total.mono h
  rintro u t r ⟨a, s', rfl, hpost⟩
  exact ⟨a, s', rfl, himp a s' u hpost⟩

@[simp] theorem ensures_pure (a : α) {post : α → σ → W → Prop} :
    Ensures step (pure a : StateT σ (Prog Q A φ) α) s w post ↔ post a s w := by
  change (∃ a' s', (Except.ok (a, s) : Except φ (α × σ)) = .ok (a', s') ∧ post a' s' w) ↔ _
  constructor
  · rintro ⟨a', s', heq, hpost⟩
    cases heq
    exact hpost
  · intro hpost
    exact ⟨a, s, rfl, hpost⟩

@[simp] theorem ensures_bind (p : StateT σ (Prog Q A φ) α) (f : α → StateT σ (Prog Q A φ) β)
    {post : β → σ → W → Prop} :
    Ensures step (p >>= f) s w post ↔
      Ensures step p s w (fun a s' w' => Ensures step (f a) s' w' post) := by
  change Total step (p s >>= fun x => f x.1 x.2) w _ ↔ _
  rw [total_bind]
  constructor
  · intro h
    apply Total.mono h
    intro u t r hnext
    cases r with
    | ok x => exact ⟨x.1, x.2, rfl, hnext⟩
    | error e =>
      obtain ⟨a, s', heq, -⟩ := hnext
      cases heq
  · intro h
    apply Total.mono h
    rintro u t r ⟨a, s', rfl, hf⟩
    exact hf

@[simp] theorem ensures_get {post : σ → σ → W → Prop} :
    Ensures step (get : StateT σ (Prog Q A φ) σ) s w post ↔ post s s w :=
  show Ensures step (pure s : StateT σ (Prog Q A φ) σ) s w post ↔ post s s w from ensures_pure s

@[simp] theorem ensures_modify (f : σ → σ) {post : PUnit → σ → W → Prop} :
    Ensures step (modify f : StateT σ (Prog Q A φ) PUnit) s w post ↔ post ⟨⟩ (f s) w :=
  show Ensures step (pure ⟨⟩ : StateT σ (Prog Q A φ) PUnit) (f s) w post ↔ post ⟨⟩ (f s) w from
    ensures_pure PUnit.unit

@[simp] theorem ensures_request (q : Q) {post : A q → σ → W → Prop} :
    Ensures step (request q : StateT σ (Prog Q A φ) (A q)) s w post ↔
      (∃ a u, step w ⟨q, a⟩ u) ∧ ∀ a u, step w ⟨q, a⟩ u → post a s u := by
  simp only [Ensures, request, total_bind, total_call, next_ok, total_pure]
  refine and_congr_right fun _ => forall₃_congr fun a u _ => ?_
  change Ensures step (pure a : StateT σ (Prog Q A φ) (A q)) s u post ↔ _
  exact ensures_pure a

@[simp] theorem ensures_ite (c : Prop) [Decidable c] (p q : StateT σ (Prog Q A φ) α)
    {post : α → σ → W → Prop} :
    Ensures step (if c then p else q) s w post ↔
      (c → Ensures step p s w post) ∧ (¬c → Ensures step q s w post) := by
  split <;> simp_all

/-- A run that an environment can be played for: `serve` answers every call. -/
def play (serve : W → (q : Q) → A q × W) : Prog Q A φ α → W → Option (α × W)
  | .ret a, w => some (a, w)
  | .fault _, _ | .stuck, _ => none
  | .ask q k, w => play serve (k (serve w q).1) (serve w q).2

theorem runs_of_play {serve : W → (q : Q) → A q × W}
    (hserve : ∀ w q, step w ⟨q, (serve w q).1⟩ (serve w q).2) {p : Prog Q A φ α} {a : α} {w' : W}
    (h : play serve p w = some (a, w')) : ∃ t, Runs p t (.ok a) ∧ Follows step w t w' := by
  induction p generalizing w with
  | ret b =>
    cases h
    exact ⟨[], ⟨rfl, rfl⟩, rfl⟩
  | fault e => cases h
  | stuck => cases h
  | ask q k ih =>
    obtain ⟨t, hrun, hf⟩ := ih _ h
    exact ⟨⟨q, _⟩ :: t, ⟨_, t, rfl, hrun⟩, _, hserve w q, hf⟩

theorem exists_executes {serve : W → (q : Q) → A q × W}
    (hserve : ∀ w q, step w ⟨q, (serve w q).1⟩ (serve w q).2)
    {p : StateT σ (Prog Q A φ) α} {a : α}
    (h : (play serve (p s) w).map (fun r => r.1.1) = some a) :
    ∃ s' w', Executes step p s w a s' w' := by
  obtain ⟨⟨⟨b, s'⟩, w'⟩, hplay, rfl⟩ := Option.map_eq_some_iff.mp h
  exact ⟨s', w', runs_of_play hserve hplay⟩

@[simp] theorem executes_pure {a b : α} {s' : σ} {w' : W} :
    Executes step (pure a : StateT σ (Prog Q A φ) α) s w b s' w' ↔ b = a ∧ s' = s ∧ w' = w := by
  constructor
  · rintro ⟨t, ⟨rfl, hr⟩, rfl⟩
    cases hr
    exact ⟨rfl, rfl, rfl⟩
  · rintro ⟨rfl, rfl, rfl⟩
    exact ⟨[], ⟨rfl, rfl⟩, rfl⟩

@[simp] theorem executes_bind {p : StateT σ (Prog Q A φ) α} {f : α → StateT σ (Prog Q A φ) β}
    {b : β} {s' : σ} {w' : W} :
    Executes step (p >>= f) s w b s' w' ↔
      ∃ a u v, Executes step p s w a u v ∧ Executes step (f a) u v b s' w' := by
  change (∃ t, Runs (p s >>= fun x => f x.1 x.2) t (.ok (b, s')) ∧ Follows step w t w') ↔ _
  constructor
  · rintro ⟨t, hruns, hf⟩
    rcases (runs_bind ..).mp hruns with ⟨t₁, t₂, x, rfl, h₁, h₂⟩ | ⟨e, heq, -⟩
    · obtain ⟨v, hf₁, hf₂⟩ := (follows_append ..).mp hf
      exact ⟨x.1, x.2, v, ⟨t₁, h₁, hf₁⟩, t₂, h₂, hf₂⟩
    · cases heq
  · rintro ⟨a, u, v, ⟨t₁, h₁, hf₁⟩, t₂, h₂, hf₂⟩
    exact ⟨t₁ ++ t₂, (runs_bind ..).mpr (.inl ⟨t₁, t₂, (a, u), rfl, h₁, h₂⟩),
      (follows_append ..).mpr ⟨v, hf₁, hf₂⟩⟩

@[simp] theorem executes_get {a s' : σ} {w' : W} :
    Executes step (get : StateT σ (Prog Q A φ) σ) s w a s' w' ↔ a = s ∧ s' = s ∧ w' = w :=
  show Executes step (pure s : StateT σ (Prog Q A φ) σ) s w a s' w' ↔ a = s ∧ s' = s ∧ w' = w from
    executes_pure

theorem Ensures.executes {p : StateT σ (Prog Q A φ) α} {post : α → σ → W → Prop}
    (h : Ensures step p s w post) {a : α} {s' : σ} {w' : W}
    (hrun : Executes step p s w a s' w') : post a s' w' := by
  obtain ⟨t, hrun, hf⟩ := hrun
  obtain ⟨b, v, heq, hpost⟩ := Total.runs h hrun hf
  cases heq
  exact hpost

theorem Executes.forget {mark : Event Q A → Bool} {p : StateT σ (Prog Q A φ) α} {a : α} {s' : σ}
    {w w' : W × Bool} (h : Executes (Noting mark step) p s w a s' w') :
    Executes step p s w.1 a s' w'.1 := by
  obtain ⟨t, hrun, hf⟩ := h
  exact ⟨t, hrun, ((follows_noting ..).mp hf).1⟩

theorem Executes.unnoted {mark : Event Q A → Bool} {p : StateT σ (Prog Q A φ) α} {a : α} {s' : σ}
    {w w' : W} {noted : Bool} (h : Executes (Noting mark step) p s (w, noted) a s' (w', false)) :
    noted = false := by
  obtain ⟨t, hrun, hf⟩ := h
  obtain ⟨-, hnote⟩ := (follows_noting ..).mp hf
  exact (Bool.or_eq_false_iff.mp hnote.symm).1

theorem executes_bind_quiet {mark : Event Q A → Bool} {p : StateT σ (Prog Q A φ) α}
    {f : α → StateT σ (Prog Q A φ) β} {b : β} {s' : σ} {w' : W} :
    Executes (Noting mark step) (p >>= f) s (w, false) b s' (w', false) ↔
      ∃ a u v, Executes (Noting mark step) p s (w, false) a u (v, false) ∧
        Executes (Noting mark step) (f a) u (v, false) b s' (w', false) := by
  rw [executes_bind]
  constructor
  · rintro ⟨a, u, ⟨v, noted⟩, hfst, hsnd⟩
    obtain rfl := hsnd.unnoted
    exact ⟨a, u, v, hfst, hsnd⟩
  · rintro ⟨a, u, v, hfst, hsnd⟩
    exact ⟨a, u, (v, false), hfst, hsnd⟩

theorem exists_executes_quiet {mark : Event Q A → Bool} {serve : W → (q : Q) → A q × W}
    (hserve : ∀ w q, step w ⟨q, (serve w q).1⟩ (serve w q).2)
    (hquiet : ∀ w q, mark ⟨q, (serve w q).1⟩ = false) {p : StateT σ (Prog Q A φ) α} {a : α}
    (h : (play serve (p s) w).map (fun r => r.1.1) = some a) :
    ∃ s' w', Executes (Noting mark step) p s (w, false) a s' (w', false) := by
  have hunmarked : ∀ w q,
      Where (fun _ e => mark e = false) step w ⟨q, (serve w q).1⟩ (serve w q).2 :=
    fun w q => ⟨hquiet w q, hserve w q⟩
  obtain ⟨s', w', t, hrun, hf⟩ := exists_executes hunmarked h
  refine ⟨s', w', t, hrun, (follows_noting ..).mpr ⟨hf.mono fun _ _ _ hu => hu.2, ?_⟩⟩
  have hall := hf.forall_mem (p := fun e => mark e = false) fun _ _ _ hu => hu.1
  rw [Bool.false_or, eq_comm, List.any_eq_false]
  exact fun e he => by simp [hall e he]

end Stateful

section Maintained
variable {Q : Type} {A : Q → Type} {φ σ α β ε W : Type} {I : σ → Prop} {mark : Event Q A → Bool}

/-- A run of the program that starts in a state with `I` ends in one, whatever is answered; and
`post` holds of what it returns, unless some call was answered with a mark. -/
def Maintains (I : σ → Prop) (mark : Event Q A → Bool) (p : StateT σ (Prog Q A φ) α)
    (post : α → Prop) : Prop :=
  ∀ s t a s', I s → Runs (p s) t (.ok (a, s')) → I s' ∧ (t.any mark = false → post a)

variable {post post' : α → Prop}

theorem Maintains.executes {step : W → Event Q A → W → Prop} {p : StateT σ (Prog Q A φ) α}
    (h : Maintains I mark p post) {s s' : σ} {w w' : W} {a : α} {noted : Bool} (hs : I s)
    (hrun : Executes (Noting mark step) p s (w, false) a s' (w', noted)) :
    I s' ∧ (noted = false → post a) := by
  obtain ⟨t, hruns, hf⟩ := hrun
  obtain ⟨-, hnote⟩ := (follows_noting ..).mp hf
  obtain ⟨hkept, hpost⟩ := h s t a s' hs hruns
  refine ⟨hkept, fun hquiet => hpost ?_⟩
  rw [Bool.false_or] at hnote
  exact hnote.symm.trans hquiet

theorem Maintains.mono {p : StateT σ (Prog Q A φ) α} (h : Maintains I mark p post)
    (himp : ∀ a, post a → post' a) : Maintains I mark p post' := by
  intro s t a s' hs hrun
  obtain ⟨hkept, hpost⟩ := h s t a s' hs hrun
  exact ⟨hkept, fun hquiet => himp a (hpost hquiet)⟩

theorem maintains_pure {a : α} (h : post a) :
    Maintains I mark (pure a : StateT σ (Prog Q A φ) α) post := by
  rintro s t b s' hs ⟨-, heq⟩
  cases heq
  exact ⟨hs, fun _ => h⟩

theorem maintains_stuck : Maintains I mark (stuck : StateT σ (Prog Q A φ) α) post :=
  fun _ _ _ _ _ hrun => hrun.elim

theorem maintains_request (q : Q) {post : A q → Prop} (h : ∀ a, mark ⟨q, a⟩ = false → post a) :
    Maintains I mark (request q : StateT σ (Prog Q A φ) (A q)) post := by
  rintro s t a s' hs ⟨b, rest, rfl, rfl, heq⟩
  cases heq
  exact ⟨hs, fun hquiet => h a (by simpa using hquiet)⟩

theorem maintains_modify {f : σ → σ} (h : ∀ s, I s → I (f s)) :
    Maintains I mark (modify f : StateT σ (Prog Q A φ) PUnit) (fun _ => True) := by
  rintro s t a s' hs ⟨-, heq⟩
  cases heq
  exact ⟨h s hs, fun _ => trivial⟩

theorem Maintains.bind {p : StateT σ (Prog Q A φ) α} {f : α → StateT σ (Prog Q A φ) β}
    {post' : β → Prop} (hp : Maintains I mark p post)
    (hf : ∀ a, Maintains I mark (f a) (fun b => post a → post' b)) :
    Maintains I mark (p >>= f) post' := by
  intro s t b s' hs hrun
  rcases (runs_bind ..).mp hrun with ⟨t₁, t₂, ⟨a, u⟩, rfl, h₁, h₂⟩ | ⟨e, heq, -⟩
  · obtain ⟨hu, hfst⟩ := hp s t₁ a u hs h₁
    obtain ⟨hs', hsnd⟩ := hf a u t₂ b s' hu h₂
    refine ⟨hs', fun hquiet => ?_⟩
    rw [List.any_append, Bool.or_eq_false_iff] at hquiet
    exact hsnd hquiet.2 (hfst hquiet.1)
  · cases heq

theorem maintains_get {f : σ → StateT σ (Prog Q A φ) β} {post : β → Prop}
    (h : ∀ s, I s → Maintains I mark (f s) post) : Maintains I mark (get >>= f) post := by
  intro s t b s' hs hrun
  exact h s hs s t b s' hs hrun

theorem maintains_ite {c : Prop} [Decidable c] {p q : StateT σ (Prog Q A φ) α}
    (hp : c → Maintains I mark p post) (hq : ¬c → Maintains I mark q post) :
    Maintains I mark (if c then p else q) post := by
  split
  · exact hp ‹_›
  · exact hq ‹_›

theorem run_tryCatch (p : ExceptT ε (StateT σ (Prog Q A φ)) α)
    (f : ε → ExceptT ε (StateT σ (Prog Q A φ)) α) :
    (tryCatch p f).run = p.run >>= fun r => match r with
      | .ok a => pure (.ok a)
      | .error e => (f e).run := by
  simp only [tryCatch, tryCatchThe, MonadExceptOf.tryCatch, ExceptT.tryCatch, ExceptT.run,
    ExceptT.mk]
  congr 1
  funext r
  cases r <;> rfl

/-- As `Maintains`, for a program that may abort: then `fail` holds in its place. -/
def MaintainsElse (I : σ → Prop) (mark : Event Q A → Bool)
    (p : ExceptT ε (StateT σ (Prog Q A φ)) α) (post : α → Prop) (fail : ε → Prop) : Prop :=
  Maintains I mark p.run (fun r => match r with
    | .ok a => post a
    | .error e => fail e)

variable {fail fail' : ε → Prop}

theorem MaintainsElse.mono {p : ExceptT ε (StateT σ (Prog Q A φ)) α}
    (h : MaintainsElse I mark p post fail) (himp : ∀ a, post a → post' a)
    (himp' : ∀ e, fail e → fail' e) : MaintainsElse I mark p post' fail' := by
  refine Maintains.mono h fun r hr => ?_
  cases r with
  | ok a => exact himp a hr
  | error e => exact himp' e hr

theorem maintainsElse_pure {a : α} (h : post a) :
    MaintainsElse I mark (pure a : ExceptT ε (StateT σ (Prog Q A φ)) α) post fail :=
  maintains_pure (a := Except.ok a) h

theorem maintainsElse_throw {e : ε} (h : fail e) :
    MaintainsElse I mark (throw e : ExceptT ε (StateT σ (Prog Q A φ)) α) post fail :=
  maintains_pure (a := Except.error e) h

theorem Maintains.lift {p : StateT σ (Prog Q A φ) α} (h : Maintains I mark p post) :
    MaintainsElse I mark (liftM p : ExceptT ε (StateT σ (Prog Q A φ)) α) post fail :=
  h.bind fun a => maintains_pure (a := Except.ok a) (id : post a → post a)

theorem MaintainsElse.bind {p : ExceptT ε (StateT σ (Prog Q A φ)) α}
    {f : α → ExceptT ε (StateT σ (Prog Q A φ)) β} {post' : β → Prop}
    (hp : MaintainsElse I mark p post fail)
    (hf : ∀ a, MaintainsElse I mark (f a) (fun b => post a → post' b) (fun e => post a → fail e)) :
    MaintainsElse I mark (p >>= f) post' fail := by
  refine Maintains.bind (f := ExceptT.bindCont f) hp fun r => ?_
  cases r with
  | ok a =>
    refine Maintains.mono (hf a) fun r hr => ?_
    cases r <;> exact hr
  | error e => exact maintains_pure (a := Except.error e) (id : fail e → fail e)

theorem MaintainsElse.under {c : Prop} {p : ExceptT ε (StateT σ (Prog Q A φ)) α}
    {f : α → ExceptT ε (StateT σ (Prog Q A φ)) β} {post' : β → Prop}
    (hp : MaintainsElse I mark p (fun a => c → post a) (fun e => c → fail e))
    (hf : ∀ a, MaintainsElse I mark (f a) (fun b => c ∧ post a → post' b)
      (fun e => c ∧ post a → fail e)) :
    MaintainsElse I mark (p >>= f) (fun b => c → post' b) (fun e => c → fail e) :=
  hp.bind fun a => (hf a).mono (fun _ hb ha hc => hb ⟨hc, ha hc⟩)
    fun _ he ha hc => he ⟨hc, ha hc⟩

theorem MaintainsElse.tryCatch {p : ExceptT ε (StateT σ (Prog Q A φ)) α}
    {f : ε → ExceptT ε (StateT σ (Prog Q A φ)) α}
    (hp : MaintainsElse I mark p post fail')
    (hf : ∀ e, MaintainsElse I mark (f e) (fun a => fail' e → post a)
      (fun e' => fail' e → fail e')) : MaintainsElse I mark (tryCatch p f) post fail := by
  rw [MaintainsElse, run_tryCatch]
  refine Maintains.bind hp fun r => ?_
  cases r with
  | ok a => exact maintains_pure (a := Except.ok a) (id : post a → post a)
  | error e =>
    refine Maintains.mono (hf e) fun r hr => ?_
    cases r <;> exact hr

theorem maintainsElse_get {f : σ → ExceptT ε (StateT σ (Prog Q A φ)) β} {post : β → Prop}
    (h : ∀ s, I s → MaintainsElse I mark (f s) post fail) :
    MaintainsElse I mark (get >>= f) post fail := by
  intro s t b s' hs hrun
  exact h s hs s t b s' hs hrun

theorem maintainsElse_ite {c : Prop} [Decidable c]
    {p q : ExceptT ε (StateT σ (Prog Q A φ)) α} (hp : c → MaintainsElse I mark p post fail)
    (hq : ¬c → MaintainsElse I mark q post fail) :
    MaintainsElse I mark (if c then p else q) post fail :=
  maintains_ite (c := c) hp hq

end Maintained

section Aborts
variable {Q : Type} {A : Q → Type} {φ σ α β ε W : Type} (step : W → Event Q A → W → Prop)

/-- As `Ensures`, for a program that may abort: then `fail` holds in its place. -/
def EnsuresElse (p : ExceptT ε (StateT σ (Prog Q A φ)) α) (s : σ) (w : W)
    (post : α → σ → W → Prop) (fail : ε → σ → W → Prop) : Prop :=
  Ensures step p.run s w (fun r s' w' =>
    (∃ a, r = .ok a ∧ post a s' w') ∨ ∃ e, r = .error e ∧ fail e s' w')

variable {step} {s : σ} {w : W} {post : α → σ → W → Prop} {fail : ε → σ → W → Prop}

theorem EnsuresElse.mono {p : ExceptT ε (StateT σ (Prog Q A φ)) α} {post' : α → σ → W → Prop}
    {fail' : ε → σ → W → Prop} (h : EnsuresElse step p s w post fail)
    (himp : ∀ a s' w', post a s' w' → post' a s' w')
    (himp' : ∀ e s' w', fail e s' w' → fail' e s' w') : EnsuresElse step p s w post' fail' := by
  apply Ensures.mono h
  rintro r s' w' (⟨a, rfl, hpost⟩ | ⟨e, rfl, hfail⟩)
  · exact .inl ⟨a, rfl, himp a s' w' hpost⟩
  · exact .inr ⟨e, rfl, himp' e s' w' hfail⟩

@[simp] theorem ensuresElse_pure (a : α) :
    EnsuresElse step (pure a : ExceptT ε (StateT σ (Prog Q A φ)) α) s w post fail ↔
      post a s w := by
  change Ensures step (pure (.ok a) : StateT σ (Prog Q A φ) (Except ε α)) s w _ ↔ _
  rw [ensures_pure]
  constructor
  · rintro (⟨b, heq, hpost⟩ | ⟨e, heq, -⟩)
    · cases heq
      exact hpost
    · cases heq
  · exact fun hpost => .inl ⟨a, rfl, hpost⟩

@[simp] theorem ensuresElse_throw (e : ε) :
    EnsuresElse step (throw e : ExceptT ε (StateT σ (Prog Q A φ)) α) s w post fail ↔
      fail e s w := by
  change Ensures step (pure (.error e) : StateT σ (Prog Q A φ) (Except ε α)) s w _ ↔ _
  rw [ensures_pure]
  constructor
  · rintro (⟨a, heq, -⟩ | ⟨e', heq, hfail⟩)
    · cases heq
    · cases heq
      exact hfail
  · exact fun hfail => .inr ⟨e, rfl, hfail⟩

@[simp] theorem ensuresElse_bind (p : ExceptT ε (StateT σ (Prog Q A φ)) α)
    (f : α → ExceptT ε (StateT σ (Prog Q A φ)) β) {post : β → σ → W → Prop} :
    EnsuresElse step (p >>= f) s w post fail ↔
      EnsuresElse step p s w (fun a s' w' => EnsuresElse step (f a) s' w' post fail) fail := by
  change Ensures step (p.run >>= ExceptT.bindCont f) s w _ ↔ _
  rw [ensures_bind]
  constructor
  · intro h
    apply Ensures.mono h
    intro r s' w' hr
    cases r with
    | ok a => exact .inl ⟨a, rfl, hr⟩
    | error e =>
      rcases (ensures_pure _).mp hr with ⟨a, heq, -⟩ | ⟨e', heq, hfail⟩
      · cases heq
      · cases heq
        exact .inr ⟨e, rfl, hfail⟩
  · intro h
    apply Ensures.mono h
    rintro r s' w' (⟨a, rfl, hr⟩ | ⟨e, rfl, hfail⟩)
    · exact hr
    · exact (ensures_pure _).mpr (.inr ⟨e, rfl, hfail⟩)

@[simp] theorem ensuresElse_lift (p : StateT σ (Prog Q A φ) α) :
    EnsuresElse step (liftM p : ExceptT ε (StateT σ (Prog Q A φ)) α) s w post fail ↔
      Ensures step p s w post := by
  change Ensures step (p >>= fun a =>
    (pure (.ok a) : StateT σ (Prog Q A φ) (Except ε α))) s w _ ↔ _
  rw [ensures_bind]
  constructor
  · intro h
    apply Ensures.mono h
    intro a s' w' hr
    rcases (ensures_pure _).mp hr with ⟨b, heq, hpost⟩ | ⟨e, heq, -⟩
    · cases heq
      exact hpost
    · cases heq
  · intro h
    apply Ensures.mono h
    intro a s' w' hpost
    exact (ensures_pure _).mpr (.inl ⟨a, rfl, hpost⟩)

@[simp] theorem ensuresElse_tryCatch (p : ExceptT ε (StateT σ (Prog Q A φ)) α)
    (f : ε → ExceptT ε (StateT σ (Prog Q A φ)) α) :
    EnsuresElse step (tryCatch p f) s w post fail ↔
      EnsuresElse step p s w post (fun e s' w' => EnsuresElse step (f e) s' w' post fail) := by
  rw [EnsuresElse, run_tryCatch, ensures_bind]
  constructor
  · intro h
    apply Ensures.mono h
    intro r s' w' hr
    cases r with
    | ok a =>
      rcases (ensures_pure _).mp hr with ⟨b, heq, hpost⟩ | ⟨e, heq, -⟩
      · cases heq
        exact .inl ⟨a, rfl, hpost⟩
      · cases heq
    | error e => exact .inr ⟨e, rfl, hr⟩
  · intro h
    apply Ensures.mono h
    rintro r s' w' (⟨a, rfl, hpost⟩ | ⟨e, rfl, hfail⟩)
    · exact (ensures_pure _).mpr (.inl ⟨a, rfl, hpost⟩)
    · exact hfail

@[simp] theorem ensuresElse_get {post : σ → σ → W → Prop} :
    EnsuresElse step (get : ExceptT ε (StateT σ (Prog Q A φ)) σ) s w post fail ↔ post s s w := by
  change EnsuresElse step (liftM (get : StateT σ (Prog Q A φ) σ)) s w post fail ↔ _
  rw [ensuresElse_lift, ensures_get]

@[simp] theorem ensuresElse_ite (c : Prop) [Decidable c]
    (p q : ExceptT ε (StateT σ (Prog Q A φ)) α) :
    EnsuresElse step (if c then p else q) s w post fail ↔
      (c → EnsuresElse step p s w post fail) ∧ (¬c → EnsuresElse step q s w post fail) := by
  split <;> simp_all

end Aborts

end Interaction
