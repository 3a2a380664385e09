import Mathlib.Logic.Relation

/-! Computations over a shared state whose effects survive an error. A failing
statement ends the computation, and every statement that ran before it stays.
The rules describe a computation by the elementary steps it is made of. -/
namespace Autocommit

abbrev Action (σ ε α : Type) := ExceptT ε (StateM σ) α

variable {σ ε α β : Type}

/-- Outcome and final state; the state is there for an error as well. -/
def Action.exec (m : Action σ ε α) (s : σ) : Except ε α × σ := StateT.run (ExceptT.run m) s

namespace Action

@[simp] theorem exec_mk (f : σ → Except ε α × σ) (s : σ) :
    exec (ExceptT.mk f : Action σ ε α) s = f s := rfl

@[simp] theorem exec_pure (a : α) (s : σ) : (pure a : Action σ ε α).exec s = (.ok a, s) := rfl

@[simp] theorem exec_throw (e : ε) (s : σ) :
    (throw e : Action σ ε α).exec s = (.error e, s) := rfl

@[simp] theorem exec_bind (m : Action σ ε α) (f : α → Action σ ε β) (s : σ) :
    (m >>= f).exec s = match m.exec s with
      | (.ok a, t) => (f a).exec t
      | (.error e, t) => (.error e, t) := by
  simp only [exec, bind, ExceptT.bind, ExceptT.mk, ExceptT.run, StateT.bind, StateT.run]
  rcases m s with ⟨_ | _, _⟩ <;> rfl

@[simp] theorem exec_map (m : Action σ ε α) (f : α → β) (s : σ) :
    (f <$> m).exec s = match m.exec s with
      | (.ok a, t) => (.ok (f a), t)
      | (.error e, t) => (.error e, t) := by
  rw [map_eq_pure_bind, exec_bind]
  rcases m.exec s with ⟨_ | _, _⟩ <;> rfl

/-- Observe and update the state without a chance of failure. -/
def step (f : σ → α × σ) : Action σ ε α := ExceptT.mk fun s => ((.ok (f s).1 : Except ε α), (f s).2)

@[simp] theorem exec_step (f : σ → α × σ) (s : σ) :
    (step f : Action σ ε α).exec s = (.ok (f s).1, (f s).2) := rfl

def ofExcept : Except ε α → Action σ ε α
  | .ok a => pure a
  | .error e => throw e

@[simp] theorem exec_ofExcept (r : Except ε α) (s : σ) :
    (ofExcept r : Action σ ε α).exec s = (r, s) := by
  cases r <;> rfl

/-- What a computation ended with; an error is a result like any other. -/
def outcome (m : Action σ ε α) : Action σ ε (Except ε α) :=
  ExceptT.mk fun s => (.ok (m.exec s).1, (m.exec s).2)

@[simp] theorem exec_outcome (m : Action σ ε α) (s : σ) :
    (outcome m).exec s = (.ok (m.exec s).1, (m.exec s).2) := rfl

/-- Keep the state reached by a computation and discard what it answered. -/
def ignore (m : Action σ ε α) : Action σ ε Unit := do
  let _ ← outcome m
  pure ()

end Action

open Autocommit.Action

variable {S : σ → σ → Prop} {P P' : σ → Prop}

/-- From every state in `P`, the computation runs through elementary steps of
`S` only, and when it answers, `Q` holds of the answer and the final state. -/
def Meets (S : σ → σ → Prop) (P : σ → Prop) (m : Action σ ε α) (Q : α → σ → Prop) : Prop :=
  ∀ s, P s → Relation.ReflTransGen S s (m.exec s).2 ∧
    ∀ a, (m.exec s).1 = .ok a → Q a (m.exec s).2

namespace Meets
variable {m : Action σ ε α} {Q Q' : α → σ → Prop}

theorem weaken (before : ∀ s, P' s → P s) (after : ∀ a s, Q a s → Q' a s)
    (met : Meets S P m Q) : Meets S P' m Q' :=
  fun s hs => ⟨(met s (before s hs)).1, fun a ha => after a _ ((met s (before s hs)).2 a ha)⟩

theorem mono {S' : σ → σ → Prop} (sub : ∀ s t, S s t → S' s t) (met : Meets S P m Q) :
    Meets S' P m Q :=
  fun s hs => ⟨Relation.ReflTransGen.mono sub _ _ (met s hs).1, (met s hs).2⟩

/-- What each elementary step keeps, the computation keeps. -/
theorem keep {I : σ → Prop} (keeps : ∀ s t, S s t → I s → I t) (met : Meets S P m Q) :
    Meets S (fun s => P s ∧ I s) m (fun a s => Q a s ∧ I s) := by
  intro s ⟨hs, holds⟩
  obtain ⟨path, answers⟩ := met s hs
  have kept : ∀ t, Relation.ReflTransGen S s t → I t := by
    intro t path
    induction path with
    | refl => exact holds
    | tail _ last ih => exact keeps _ _ last ih
  exact ⟨path, fun a ha => ⟨answers a ha, kept _ path⟩⟩

/-- Facts about the present state may fix the assertion to go on from. -/
theorem given (each : ∀ s, P s → ∃ P', P' s ∧ Meets S P' m Q) : Meets S P m Q := by
  intro s hs
  obtain ⟨P', holds, met⟩ := each s hs
  exact met s holds

theorem pure {a : α} (holds : ∀ s, P s → Q a s) :
    Meets S P (Pure.pure a : Action σ ε α) Q :=
  fun s hs => ⟨.refl, fun _ ha => by cases ha; exact holds s hs⟩

theorem throw {e : ε} : Meets S P (MonadExcept.throw e : Action σ ε α) Q :=
  fun _ _ => ⟨.refl, fun _ ha => by cases ha⟩

theorem bind {f : α → Action σ ε β} {R : β → σ → Prop} (first : Meets S P m Q)
    (rest : ∀ a, Meets S (Q a) (f a) R) : Meets S P (m >>= f) R := by
  intro s hs
  obtain ⟨path, answers⟩ := first s hs
  rw [exec_bind]
  cases run : m.exec s with
  | mk result t =>
    rw [run] at path answers
    cases result with
    | error e => exact ⟨path, fun _ ha => by cases ha⟩
    | ok a =>
      obtain ⟨path', answers'⟩ := rest a t (answers a rfl)
      exact ⟨path.trans path', answers'⟩

/-- One elementary step. -/
theorem step {f : σ → α × σ} (moves : ∀ s, P s → S s (f s).2)
    (holds : ∀ s, P s → Q (f s).1 (f s).2) : Meets S P (Action.step f : Action σ ε α) Q :=
  fun s hs => ⟨.single (moves s hs), fun _ ha => by cases ha; exact holds s hs⟩

/-- An update that is several elementary steps. -/
theorem steps {f : σ → α × σ} (moves : ∀ s, P s → Relation.ReflTransGen S s (f s).2)
    (holds : ∀ s, P s → Q (f s).1 (f s).2) : Meets S P (Action.step f : Action σ ε α) Q :=
  fun s hs => ⟨moves s hs, fun _ ha => by cases ha; exact holds s hs⟩

/-- An observation that leaves the state alone. -/
theorem look {f : σ → α × σ} (still : ∀ s, (f s).2 = s)
    (holds : ∀ s, P s → Q (f s).1 s) : Meets S P (Action.step f : Action σ ε α) Q := by
  intro s hs
  simp only [exec_step, still]
  exact ⟨.refl, fun _ ha => by cases ha; exact holds s hs⟩

theorem ofExcept {r : Except ε α} (holds : ∀ a s, r = .ok a → P s → Q a s) :
    Meets S P (Action.ofExcept r) Q := by
  intro s hs
  simp only [exec_ofExcept]
  exact ⟨.refl, fun a ha => holds a s ha hs⟩

/-- What the steps keep holds after an error too. -/
theorem outcome (met : Meets S P m Q) (keeps : ∀ s t, P s → Relation.ReflTransGen S s t → P' t) :
    Meets S P (Action.outcome m) (fun r s => P' s ∧ ∀ a, r = .ok a → Q a s) :=
  fun s hs => ⟨(met s hs).1, fun _ same => by
    cases same; exact ⟨keeps s _ hs (met s hs).1, (met s hs).2⟩⟩

theorem ignore (met : Meets S P m Q) (keeps : ∀ s t, P s → Relation.ReflTransGen S s t → P' t) :
    Meets S P (Action.ignore m) (fun _ => P') :=
  (outcome met keeps).bind fun _ => Meets.pure fun _ holds => holds.1

theorem ite {c : Prop} [Decidable c] {a b : Action σ ε α} (yes : c → Meets S P a Q)
    (no : ¬ c → Meets S P b Q) : Meets S P (if c then a else b) Q := by
  split
  · exact yes ‹_›
  · exact no ‹_›

/-- A loop keeps what each of its turns keeps. -/
theorem forM {xs : List α} {f : α → Action σ ε PUnit}
    (each : ∀ x ∈ xs, Meets S P (f x) (fun _ => P)) :
    Meets S P (ForM.forM xs f) (fun _ => P) := by
  induction xs with
  | nil => exact Meets.pure (fun _ h => h)
  | cons x xs ih =>
    rw [List.forM_cons]
    exact (each x (by simp)).bind fun _ => ih fun y hy => each y (by simp [hy])

end Meets

/-- From every state in `P`, the computation answers, and `Q` holds of the answer
and the final state. -/
def Succeeds (P : σ → Prop) (m : Action σ ε α) (Q : α → σ → Prop) : Prop :=
  ∀ s, P s → ∃ a t, m.exec s = (.ok a, t) ∧ Q a t

namespace Succeeds
variable {m : Action σ ε α} {Q Q' : α → σ → Prop}

theorem weaken (before : ∀ s, P' s → P s) (after : ∀ a s, Q a s → Q' a s)
    (succeeds : Succeeds P m Q) : Succeeds P' m Q' := by
  intro s hs
  obtain ⟨a, t, ran, holds⟩ := succeeds s (before s hs)
  exact ⟨a, t, ran, after a t holds⟩

theorem pure {a : α} (holds : ∀ s, P s → Q a s) : Succeeds P (Pure.pure a : Action σ ε α) Q :=
  fun s hs => ⟨a, s, rfl, holds s hs⟩

theorem bind {f : α → Action σ ε β} {R : β → σ → Prop} (first : Succeeds P m Q)
    (rest : ∀ a, Succeeds (Q a) (f a) R) : Succeeds P (m >>= f) R := by
  intro s hs
  obtain ⟨a, t, ran, holds⟩ := first s hs
  obtain ⟨b, u, ran', holds'⟩ := rest a t holds
  exact ⟨b, u, by rw [exec_bind, ran]; exact ran', holds'⟩

theorem step {f : σ → α × σ} (holds : ∀ s, P s → Q (f s).1 (f s).2) :
    Succeeds P (Action.step f : Action σ ε α) Q :=
  fun s hs => ⟨_, _, rfl, holds s hs⟩

theorem forM {xs : List α} {f : α → Action σ ε PUnit}
    (each : ∀ x ∈ xs, Succeeds P (f x) (fun _ => P)) :
    Succeeds P (ForM.forM xs f) (fun _ => P) := by
  induction xs with
  | nil => exact pure fun _ holds => holds
  | cons x xs ih =>
    rw [List.forM_cons]
    exact (each x (by simp)).bind fun _ => ih fun y hy => each y (by simp [hy])

end Succeeds
end Autocommit
