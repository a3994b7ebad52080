import GoOpenApi.Fault
import Mathlib.Tactic.Common

/-!
What actions do to the state, whether they end with an answer or with a fault.
-/

namespace GoOpenApi

namespace Except

variable {ε α β : Type}

@[simp]
theorem ok_bind (x : α) (f : α → Except ε β) : (Except.ok x >>= f) = f x := rfl

@[simp]
theorem error_bind (fault : ε) (f : α → Except ε β) :
    (Except.error fault >>= f) = .error fault := rfl

@[simp]
theorem throw_eq (fault : ε) : (throw fault : Except ε α) = .error fault := rfl

@[simp]
theorem pure_eq (x : α) : (pure x : Except ε α) = .ok x := rfl

theorem bind_eq_error {x : Except ε α} {f : α → Except ε β} {fault : ε}
    (h : (x >>= f) = .error fault) : x = .error fault ∨ ∃ a, x = .ok a ∧ f a = .error fault := by
  cases x with
  | ok a => exact .inr ⟨a, rfl, h⟩
  | error fault' =>
    cases h
    exact .inl rfl

end Except

section

variable {σ α β : Type} {a : Action σ α} {t : σ}

theorem ok_of_isOk (h : (a t).1.isOk) : ∃ x t', a t = (.ok x, t') := by
  rcases ha : a t with ⟨fault | x, t'⟩
  · rw [ha] at h
    cases h
  · exact ⟨x, t', rfl⟩

theorem ok_of_map {f : α → β} {y : β} (h : (a t).1.toOption.map f = some y) :
    ∃ x t', a t = (.ok x, t') ∧ f x = y := by
  rcases ha : a t with ⟨fault | x, t'⟩ <;> rw [ha] at h
  · cases h
  · exact ⟨x, t', rfl, Option.some.inj h⟩

end

namespace Action

variable {σ τ α β : Type} {P P' : σ → Prop} {E E' : Fault → σ → Prop}

section

variable {ε : Type} {a : ExceptT ε (StateM σ) α} {f : α → ExceptT ε (StateM σ) β} {s s' : σ}

theorem run_bind (a : ExceptT ε (StateM σ) α) (f : α → ExceptT ε (StateM σ) β) (s : σ) :
    (a >>= f) s = match a s with
      | (.ok x, s') => f x s'
      | (.error fault, s') => (.error fault, s') := by
  simp only [bind, ExceptT.bind, ExceptT.mk, StateT.bind, ExceptT.bindCont]
  cases h : a s with
  | mk r s' => cases r <;> rfl

theorem bind_ok {y : β} (h : (a >>= f) s = (.ok y, s')) :
    ∃ x s₁, a s = (.ok x, s₁) ∧ f x s₁ = (.ok y, s') := by
  rw [run_bind] at h
  split at h
  · exact ⟨_, _, ‹_›, h⟩
  · cases h

theorem run_get_bind (f : σ → ExceptT ε (StateM σ) α) (s : σ) :
    (MonadState.get >>= f) s = f s s := rfl

theorem run_lift_bind (x : Except ε α) (f : α → ExceptT ε (StateM σ) β) (s : σ) :
    ((liftM x : ExceptT ε (StateM σ) α) >>= f) s = match x with
      | .ok y => f y s
      | .error fault => (.error fault, s) := by
  rw [run_bind]
  cases x <;> rfl

theorem run_tryCatch (a : ExceptT ε (StateM σ) α) (handle : ε → ExceptT ε (StateM σ) α) (s : σ) :
    tryCatch a handle s = match a s with
      | (.ok x, s') => (.ok x, s')
      | (.error fault, s') => handle fault s' := by
  have hr : MonadExcept.tryCatch a handle s = ExceptT.tryCatch a handle s := rfl
  rw [hr]
  simp only [ExceptT.tryCatch, ExceptT.mk, Bind.bind, StateT.bind]
  cases h : a s with
  | mk r s' => cases r <;> rfl

end

theorem run_focus (get : σ → τ) (set : τ → σ → σ) (a : Action τ α) (s : σ) :
    focus get set a s = ((a (get s)).1, set (a (get s)).2 s) := rfl

theorem run_focus_bind (get : σ → τ) (set : τ → σ → σ) (a : Action τ α) (f : α → Action σ β)
    (s : σ) : (focus get set a >>= f) s = match a (get s) with
      | (.ok x, t) => f x (set t s)
      | (.error fault, t) => (.error fault, set t s) := by
  rw [run_bind, run_focus]
  cases h : a (get s) with
  | mk r t => cases r <;> rfl

/-- From a state in `P` an action ends with an answer as `Q` says, or with a fault as `E` says. -/
def Triple (P : σ → Prop) (a : Action σ α) (Q : α → σ → Prop) (E : Fault → σ → Prop) : Prop :=
  ∀ s, P s → match a s with
    | (.ok x, s') => Q x s'
    | (.error fault, s') => E fault s'

namespace Triple

variable {Q Q' : α → σ → Prop}

theorem ok {a : Action σ α} (h : Triple P a Q E) {s s' : σ} {x : α} (hs : P s)
    (hr : a s = (.ok x, s')) : Q x s' := by
  have := h s hs
  rwa [hr] at this

theorem error {a : Action σ α} (h : Triple P a Q E) {s s' : σ} {fault : Fault} (hs : P s)
    (hr : a s = (.error fault, s')) : E fault s' := by
  have := h s hs
  rwa [hr] at this

theorem pure {x : α} (h : ∀ s, P s → Q x s) : Triple P (pure x) Q E := h

theorem throw {fault : Fault} (h : ∀ s, P s → E fault s) :
    Triple P (throw fault : Action σ α) Q E := h

theorem bind {a : Action σ α} {f : α → Action σ β} {R : β → σ → Prop} (ha : Triple P a Q E)
    (hf : ∀ x, Triple (Q x) (f x) R E) : Triple P (a >>= f) R E := by
  intro s hs
  have h := ha s hs
  rw [run_bind]
  cases ha : a s with
  | mk r s' =>
    rw [ha] at h
    cases r with
    | ok x => exact hf x s' h
    | error fault => exact h

theorem get {f : σ → Action σ α} (h : ∀ s, P s → Triple (· = s) (f s) Q E) :
    Triple P (MonadState.get >>= f) Q E :=
  fun s hs ↦ h s hs s rfl

theorem modify {f : σ → σ} {Q : PUnit → σ → Prop} (h : ∀ s, P s → Q ⟨⟩ (f s)) :
    Triple P (modify f : Action σ PUnit) Q E := h

theorem set {s' : σ} {Q : PUnit → σ → Prop} (h : ∀ s, P s → Q ⟨⟩ s') :
    Triple P (MonadStateOf.set s' : Action σ PUnit) Q E := h

theorem mono {a : Action σ α} (h : Triple P a Q E) (hP : ∀ s, P' s → P s)
    (hQ : ∀ x s, Q x s → Q' x s) (hE : ∀ fault s, E fault s → E' fault s) :
    Triple P' a Q' E' := by
  intro s hs
  have := h s (hP s hs)
  split at this
  · exact hQ _ _ this
  · exact hE _ _ this

theorem tryCatch {a : Action σ α} {handle : Fault → Action σ α} (ha : Triple P a Q E)
    (hh : ∀ fault, Triple (E fault) (handle fault) Q E') :
    Triple P (tryCatch a handle) Q E' := by
  intro s hs
  have h := ha s hs
  rw [run_tryCatch]
  cases ha : a s with
  | mk r s' =>
    rw [ha] at h
    cases r with
    | ok x => exact h
    | error fault => exact hh fault s' h

/-- What is known apart from the state. -/
theorem assume {φ : Prop} {a : Action σ α} (h : φ → Triple P a Q E) :
    Triple (fun s ↦ P s ∧ φ) a Q E :=
  fun s hs ↦ h hs.2 s hs.1

/-- An action on a part of the state leaves the rest as it was. -/
theorem focus {get : σ → τ} {set : τ → σ → σ} {a : Action τ α}
    (h : ∀ s, P s → Triple (· = get s) a (fun x t ↦ Q x (set t s))
      (fun fault t ↦ E fault (set t s))) :
    Triple P (focus get set a) Q E := by
  intro s hs
  have := h s hs (get s) rfl
  rw [run_focus]
  cases ha : a (get s) with
  | mk r t =>
    rw [ha] at this
    cases r <;> exact this

end Triple

end Action

end GoOpenApi
