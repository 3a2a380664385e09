import Mathlib.Logic.Relation

/-! Relations without cycles: what an added pair may close, and how a closed set
shows that nothing leads from one point to another. -/
namespace Cycles
open Relation

variable {α : Type*} {r s : α → α → Prop}

def Acyclic (r : α → α → Prop) : Prop := ∀ a, ¬ TransGen r a a

theorem acyclic_of_none (none : ∀ a b, ¬ r a b) : Acyclic r := by
  intro a path
  obtain ⟨_, _, step⟩ := TransGen.tail'_iff.mp path
  exact none _ _ step

theorem Acyclic.mono (acyclic : Acyclic r) (fewer : ∀ a b, s a b → r a b) : Acyclic s :=
  fun a path => acyclic a (TransGen.mono fewer a a path)

/-- A path over one more pair either avoids it or splits at its last use. -/
theorem path_with {a b x y : α} (path : TransGen (fun x y => r x y ∨ x = a ∧ y = b) x y)
    (apart : ¬ ReflTransGen r b a) :
    TransGen r x y ∨ ReflTransGen r x a ∧ ReflTransGen r b y := by
  induction path with
  | single step =>
    rcases step with step | ⟨rfl, rfl⟩
    · exact .inl (.single step)
    · exact .inr ⟨.refl, .refl⟩
  | tail _ step ih =>
    rcases ih, step with ⟨old | ⟨front, back⟩, step | ⟨rfl, rfl⟩⟩
    · exact .inl (old.tail step)
    · exact .inr ⟨old.to_reflTransGen, .refl⟩
    · exact .inr ⟨front, back.tail step⟩
    · exact absurd back apart

/-- A pair whose end does not lead back to its beginning closes no cycle. -/
theorem Acyclic.insert {a b : α} (acyclic : Acyclic r) (apart : ¬ ReflTransGen r b a) :
    Acyclic fun x y => r x y ∨ x = a ∧ y = b := by
  intro x path
  rcases path_with path apart with old | ⟨front, back⟩
  · exact acyclic x old
  · exact apart (back.trans front)

/-- A set that steps do not leave, and do not enter the goal from, holds all
that its members lead to. -/
theorem no_path_of_closed {p : α → Prop} {start goal : α} (inside : p start)
    (closed : ∀ x, p x → ∀ y, r x y → p y ∧ y ≠ goal) : ¬ TransGen r start goal := by
  intro path
  have keeps : ∀ {y}, ReflTransGen r start y → p y := by
    intro y walk
    induction walk with
    | refl => exact inside
    | tail _ step ih => exact (closed _ ih _ step).1
  obtain ⟨last, walk, step⟩ := TransGen.tail'_iff.mp path
  exact (closed last (keeps walk) goal step).2 rfl

end Cycles
