/-
  Foundation/TwoRuns.lean --- two runs of calls that may raise, compared step by step.

  `Both R x y` says that the two calls agree on whether they return, and that `R`
  relates what they return.  It goes through `>>=` step by step (`Both.bind`), so two
  runs of one program on related inputs are compared by comparing their calls.
-/
import Mathlib.Logic.Basic

set_option autoImplicit false

namespace RtlsStream.Foundation

universe u v

variable {ε : Type u} {α β γ δ : Type v}

/-- Both calls raise, or both return and what they return is related. -/
def Both (R : α → β → Prop) : Except ε α → Except ε β → Prop
  | .ok a, .ok b => R a b
  | .error _, .error _ => True
  | _, _ => False

namespace Both

variable {R : α → β → Prop} {x : Except ε α} {y : Except ε β}

/-- The two ways the calls can go. -/
theorem cases (h : Both R x y) :
    (∃ e e', x = .error e ∧ y = .error e') ∨ ∃ a b, x = .ok a ∧ y = .ok b ∧ R a b := by
  cases x <;> cases y
  · exact Or.inl ⟨_, _, rfl, rfl⟩
  · exact h.elim
  · exact h.elim
  · exact Or.inr ⟨_, _, rfl, rfl, h⟩

/-- What follows two related calls is compared at related results. -/
theorem bind {S : γ → δ → Prop} {f : α → Except ε γ} {g : β → Except ε δ} (h : Both R x y)
    (hrest : ∀ a b, R a b → Both S (f a) (g b)) : Both S (x >>= f) (y >>= g) := by
  cases x <;> cases y
  · trivial
  · exact h.elim
  · exact h.elim
  · exact hrest _ _ h

/-- The same call first, and what follows is compared at one result. -/
theorem bind_same {S : γ → δ → Prop} (x : Except ε α) {f : α → Except ε γ} {g : α → Except ε δ}
    (hrest : ∀ a, Both S (f a) (g a)) : Both S (x >>= f) (x >>= g) := by
  cases x
  · trivial
  · exact hrest _

/-- What the calls return is mapped. -/
theorem map {S : γ → δ → Prop} {f : α → γ} {g : β → δ} (h : Both R x y)
    (hrest : ∀ a b, R a b → S (f a) (g b)) : Both S (x.map f) (y.map g) := by
  cases x <;> cases y
  · trivial
  · exact h.elim
  · exact h.elim
  · exact hrest _ _ h

end Both

end RtlsStream.Foundation
