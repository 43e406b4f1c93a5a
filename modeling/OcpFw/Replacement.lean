import Mathlib.Data.Set.BooleanAlgebra
import Mathlib.Data.Set.Function
import Mathlib.Order.CompletePartialOrder
import Mathlib.Order.Interval.Set.Basic

/-! Replacing some of the things in use by others from a reserve. Whatever is replaced gets
something of its own, so that the map from the things in use to what stands for them is
one to one. -/
namespace Replacement
variable {α : Type} {f : α → α} {used given given' : Set α} {x y : α}

/-- Everything in use stands for itself or was replaced by something given out, and nothing
was given out twice. -/
structure Replaces (f : α → α) (used given : Set α) : Prop where
  image : ∀ x ∈ used, f x = x ∨ f x ∈ given
  apart : Disjoint used given
  once : Set.InjOn f used

/-- Nothing is replaced yet. -/
theorem Replaces.start (same : ∀ x ∈ used, f x = x) : Replaces f used ∅ where
  image x member := .inl (same x member)
  apart := Set.disjoint_empty _
  once := fun x hx y hy h => by rwa [same x hx, same y hy] at h

/-- More may be given out than is made use of. -/
theorem Replaces.more (ok : Replaces f used given) (more : given ⊆ given') (apart : Disjoint used given') :
    Replaces f used given' where
  image x member := (ok.image x member).imp_right (more ·)
  apart := apart
  once := ok.once

/-- Something in use is replaced by something that was not given out before. -/
theorem Replaces.replace [DecidableEq α] (ok : Replaces f used given) (fresh : y ∉ given)
    (other : y ∉ used) : Replaces (Function.update f x y) used (insert y given) where
  image z member := by
    by_cases same : z = x
    · subst same
      simp
    · rw [Function.update_of_ne same]
      exact (ok.image z member).imp_right .inr
  apart := by
    rw [Set.disjoint_insert_right]
    exact ⟨other, ok.apart⟩
  once := by
    have new : ∀ z ∈ used, z ≠ x → f z ≠ y := by
      rintro z member - rfl
      rcases ok.image z member with self | out
      · exact other (by rwa [self])
      · exact fresh out
    intro u hu v hv h
    by_cases first : u = x <;> by_cases second : v = x
    · exact first.trans second.symm
    · subst first
      rw [Function.update_self, Function.update_of_ne second] at h
      exact absurd h.symm (new v hv second)
    · subst second
      rw [Function.update_self, Function.update_of_ne first] at h
      exact absurd h (new u hu first)
    · rw [Function.update_of_ne first, Function.update_of_ne second] at h
      exact ok.once hu hv h

/-- Only what is in use matters. -/
theorem Replaces.congr {f' : α → α} (ok : Replaces f used given) (same : ∀ x ∈ used, f' x = f x) :
    Replaces f' used given where
  image x member := same x member ▸ ok.image x member
  apart := ok.apart
  once := ok.once.congr fun x member => (same x member).symm

end Replacement
