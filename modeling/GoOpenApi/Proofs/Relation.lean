import GoOpenApi.Proofs.Action

/-!
Relations between actions. What is put together from related actions is related, so that a function
over types or members has one pass for all relations.
-/

namespace GoOpenApi.Action

/-- A relation between actions on two states, together with what is known of their answers. -/
structure Relation (σ τ : Type) where
  Holds : {α : Type} → (α → Prop) → Action σ α → Action τ α → Prop
  pure {α : Type} {P : α → Prop} {x : α} : P x → Holds P (pure x) (pure x)
  bind {α β : Type} {P : α → Prop} {Q : β → Prop} {a : Action σ α} {a' : Action τ α}
    {f : α → Action σ β} {f' : α → Action τ β} :
    Holds P a a' → (∀ x, P x → Holds Q (f x) (f' x)) → Holds Q (a >>= f) (a' >>= f')

namespace Relation

variable {σ τ α β : Type} (R : Relation σ τ) {a : Action σ α} {a' : Action τ α}

/-- The actions are related, whatever they answer. -/
def Relates (a : Action σ α) (a' : Action τ α) : Prop := R.Holds (fun _ ↦ True) a a'

theorem mono {P Q : α → Prop} (h : R.Holds P a a') (hq : ∀ x, P x → Q x) : R.Holds Q a a' := by
  have hb := R.bind h fun x hx ↦ R.pure (hq x hx)
  rwa [bind_pure, bind_pure] at hb

variable {R}

theorem Relates.pure (x : α) : R.Relates (Pure.pure x) (Pure.pure x) := R.pure trivial

theorem Relates.bind {f : α → Action σ β} {f' : α → Action τ β} (h : R.Relates a a')
    (hf : ∀ x, R.Relates (f x) (f' x)) : R.Relates (a >>= f) (a' >>= f') :=
  R.bind h fun x _ ↦ hf x

theorem Relates.map (h : R.Relates a a') (f : α → β) :
    R.Relates (do return f (← a)) (do return f (← a')) :=
  h.bind fun x ↦ .pure (f x)

end Relation

end GoOpenApi.Action
