import Crewd.Statements
import Crewd.Lib.Tracing
import Crewd.Lib.Stages

/-! How a handler goes, section by section: the effect of each section and the
result may depend on the sections that were visited before. For a call that has
answered, its stages are taken apart along its program. -/
namespace Crewd
open Autocommit Concurrent

variable {S M X K α β : Type}

/-- The sections a thread has been through, with their inputs and states. -/
abbrev Visits (S M X K : Type) := List (Input X × World S M X K)

/-- Success and failure of a handler, each with its own description. -/
def endsIn (failed : Visits S M X K → BusError → Prop) (answered : Visits S M X K → α → Prop)
    (visits : Visits S M X K) : Except BusError α → Prop
  | .ok a => answered visits a
  | .error e => failed visits e

/-- From the visits on, every section has the effect, and the handler ends as described. -/
def Goes (effect : Visits S M X K → Input X → World S M X K → World S M X K → Prop)
    (failed : Visits S M X K → BusError → Prop) (visits : Visits S M X K)
    (h : Handler S M X K α) (answered : Visits S M X K → α → Prop) : Prop :=
  h.run.Along effect (endsIn failed answered) visits

namespace Goes
variable {effect : Visits S M X K → Input X → World S M X K → World S M X K → Prop}
  {failed : Visits S M X K → BusError → Prop} {visits : Visits S M X K}
  {h : Handler S M X K α} {answered answered' : Visits S M X K → α → Prop}
  {result : Visits S M X K → β → Prop}

theorem bind {f : α → Handler S M X K β} (first : Goes effect failed visits h answered)
    (rest : ∀ visits a, answered visits a → Goes effect failed visits (f a) result) :
    Goes effect failed visits (h >>= f) result := by
  refine Process.Along.bind (p := h.run) first fun visits r ended => ?_
  cases r with
  | ok a => exact rest visits a ended
  | error e => exact ended

theorem pure {a : α} (holds : answered visits a) :
    Goes effect failed visits (Pure.pure a : Handler S M X K α) answered := holds

theorem throw {e : BusError} (fails : failed visits e) :
    Goes effect failed visits (MonadExcept.throw e : Handler S M X K α) answered := fails

theorem raise {r : Except BusError α} (holds : ∀ a, r = .ok a → answered visits a)
    (fails : ∀ e, r = .error e → failed visits e) :
    Goes effect failed visits (raise r) answered := by
  cases r with
  | ok a => exact holds a rfl
  | error e => exact fails e rfl

/-- After a check that needs no lock. -/
theorem raised {r : Except BusError α} {f : α → Handler S M X K β}
    (fails : ∀ e, r = .error e → failed visits e)
    (rest : ∀ a, r = .ok a → Goes effect failed visits (f a) result) :
    Goes effect failed visits (Crewd.raise r >>= f) result := by
  cases r with
  | ok a => exact rest a rfl
  | error e => exact fails e rfl

theorem locked {m : Act S M X K α} (effects : ∀ i w, effect visits i w (m.exec (w.install i)).2)
    (holds : ∀ i w a, (m.exec (w.install i)).1 = .ok a → answered (visits ++ [(i, w)]) a)
    (fails : ∀ i w e, (m.exec (w.install i)).1 = .error e → failed (visits ++ [(i, w)]) e) :
    Goes effect failed visits (locked m) answered := by
  refine Process.Along.critical (fun i w => effects i w) fun i w => ?_
  cases run : (m.exec (w.install i)).1 with
  | ok a => exact holds i w a run
  | error e => exact fails i w e run

theorem weaken (after : ∀ visits a, answered visits a → answered' visits a)
    (goes : Goes effect failed visits h answered) : Goes effect failed visits h answered' := by
  refine Process.Along.weaken (fun _ _ _ _ effects => effects) (fun visits r ended => ?_) goes
  cases r with
  | ok a => exact after visits a ended
  | error e => exact ended

end Goes

section Taken
variable {h : Handler S M X K α} {f : α → Handler S M X K β}
  {stages : List (Stage (World S M X K) (Input X))}

/-- A part answers and the handler goes on, or its error ends the handler. -/
theorem takes_bind {r : Except BusError β} (takes : (h >>= f).run.Takes stages r) :
    (∃ first rest a, stages = first ++ rest ∧ h.run.Takes first (.ok a) ∧ (f a).run.Takes rest r) ∨
      ∃ e, r = .error e ∧ h.run.Takes stages (.error e) := by
  obtain ⟨first, rest, x, rfl, taken, last⟩ := Process.Takes.of_bind (p := h.run) takes
  cases x with
  | ok a => exact .inl ⟨first, rest, a, rfl, taken, last⟩
  | error e =>
    obtain ⟨rfl, rfl⟩ := last.of_done
    exact .inr ⟨e, rfl, by rwa [List.append_nil]⟩

theorem takes_pure {a : α} {r : Except BusError α}
    (takes : (pure a : Handler S M X K α).run.Takes stages r) : stages = [] ∧ r = .ok a :=
  takes.of_done

theorem takes_throw {e : BusError} {r : Except BusError α}
    (takes : (throw e : Handler S M X K α).run.Takes stages r) : stages = [] ∧ r = .error e :=
  takes.of_done

theorem takes_raise {x r : Except BusError α} (takes : (raise x : Handler S M X K α).run.Takes stages r) :
    stages = [] ∧ r = x :=
  takes.of_done

/-- After a check that succeeds. -/
theorem takes_raised {x : Except BusError α} {a : α} {r : Except BusError β} (ok : x = .ok a)
    (takes : (raise x >>= f).run.Takes stages r) : (f a).run.Takes stages r := by
  subst ok
  exact takes

/-- A check that needs no lock ends the handler, or it goes on at once. -/
theorem takes_checked {x : Except BusError α} {r : Except BusError β}
    (takes : (raise x >>= f).run.Takes stages r) :
    (∃ a, x = .ok a ∧ (f a).run.Takes stages r) ∨ ∃ e, stages = [] ∧ r = .error e := by
  cases x with
  | ok a => exact .inl ⟨a, rfl, takes⟩
  | error e => exact .inr ⟨e, takes.of_done⟩

theorem takes_locked {m : Act S M X K α} {r : Except BusError α}
    (takes : (locked m).run.Takes stages r) : ∃ i w,
      stages = [⟨i, w, (m.exec (w.install i)).2⟩] ∧ r = (m.exec (w.install i)).1 :=
  takes.of_critical

/-- A section that answers, and what follows, or one that ends the handler. -/
theorem takes_section {m : Act S M X K α} {r : Except BusError β}
    (takes : (locked m >>= f).run.Takes stages r) : ∃ i w rest,
      stages = ⟨i, w, (m.exec (w.install i)).2⟩ :: rest ∧
      ((∃ a, (m.exec (w.install i)).1 = .ok a ∧ (f a).run.Takes rest r) ∨
        ∃ e, (m.exec (w.install i)).1 = .error e ∧ rest = [] ∧ r = .error e) := by
  rcases takes_bind takes with ⟨first, rest, a, rfl, taken, later⟩ | ⟨e, rfl, taken⟩
  · obtain ⟨i, w, rfl, ok⟩ := takes_locked taken
    exact ⟨i, w, rest, rfl, .inl ⟨a, ok.symm, later⟩⟩
  · obtain ⟨i, w, rfl, failed⟩ := takes_locked taken
    exact ⟨i, w, [], rfl, .inr ⟨e, failed.symm, rfl, rfl⟩⟩

end Taken
end Crewd
