import Crewd.Fabric.Deeds

/-! The drain of a turn. Between two ticks every event that was taken from an adapter for a
turn has been applied to it, in order, up to the one that ended the turn, unless a statement
failed when an earlier event was applied. -/
namespace Crewd.Fabric
open Autocommit Concurrent History Table

variable {w w' : World} {turn : Nat}

section Events
variable {xs ys : List EngineEvent}

/-- Events up to the first one that ends the turn. -/
def upToEnd : List EngineEvent → List EngineEvent
  | [] => []
  | event :: rest => if event.terminal then [event] else event :: upToEnd rest

/-- The events that were taken for the turn since the daemon started, the first one first. -/
def takenFor (turn : Nat) : List Mark → List EngineEvent
  | [] => []
  | .restarted :: _ => []
  | .polled number _ event :: earlier =>
    if number = turn then takenFor turn earlier ++ [event] else takenFor turn earlier
  | _ :: earlier => takenFor turn earlier

/-- The events that were applied to the turn since the daemon started. -/
def appliedTo (turn : Nat) : List Mark → List EngineEvent
  | [] => []
  | .restarted :: _ => []
  | .applied number _ event _ :: earlier =>
    if number = turn then appliedTo turn earlier ++ [event] else appliedTo turn earlier
  | _ :: earlier => appliedTo turn earlier

/-- The section that applies an event fails only when the event ends the turn. -/
def Unbroken (_ : List Mark) : Mark → Prop
  | .applied _ _ event failing => failing = true → event.terminal = true
  | _ => True

theorem upToEnd_of_ended (ended : ∃ event ∈ xs, event.terminal = true) :
    upToEnd (xs ++ ys) = upToEnd xs := by
  induction xs with
  | nil =>
    obtain ⟨_, inside, _⟩ := ended
    cases inside
  | cons event rest ih =>
    simp only [List.cons_append, upToEnd]
    split
    · rfl
    · rename_i goes
      obtain ⟨other, inside, terminal⟩ := ended
      rcases List.mem_cons.mp inside with rfl | later
      · exact absurd terminal goes
      · rw [ih ⟨other, later, terminal⟩]

/-- What comes behind the end of a turn does not count. -/
theorem upToEnd_append : upToEnd (upToEnd xs ++ ys) = upToEnd (xs ++ ys) := by
  induction xs with
  | nil => rfl
  | cons event rest ih =>
    simp only [List.cons_append, upToEnd]
    split
    · rename_i ends
      simp [upToEnd, ends]
    · rename_i goes
      simp [upToEnd, goes, ih]

theorem upToEnd_congr {zs : List EngineEvent} (same : upToEnd xs = upToEnd ys) :
    upToEnd (xs ++ zs) = upToEnd (ys ++ zs) := by
  rw [← upToEnd_append, same, upToEnd_append]

theorem mem_of_upToEnd {event : EngineEvent} (inside : event ∈ upToEnd xs) : event ∈ xs := by
  induction xs with
  | nil => cases inside
  | cons first rest ih =>
    rw [upToEnd] at inside
    split at inside
    · exact List.mem_cons.mpr (.inl (List.mem_singleton.mp inside))
    · rcases List.mem_cons.mp inside with same | later
      · exact List.mem_cons.mpr (.inl same)
      · exact List.mem_cons_of_mem _ (ih later)

/-- A turn that has ended shows its end. -/
theorem ended_upToEnd (ended : ∃ event ∈ xs, event.terminal = true) :
    ∃ event ∈ upToEnd xs, event.terminal = true := by
  induction xs with
  | nil =>
    obtain ⟨_, inside, _⟩ := ended
    cases inside
  | cons event rest ih =>
    rw [upToEnd]
    split
    · rename_i ends
      exact ⟨event, List.mem_cons_self, ends⟩
    · rename_i goes
      obtain ⟨other, inside, terminal⟩ := ended
      rcases List.mem_cons.mp inside with rfl | later
      · exact absurd terminal goes
      · obtain ⟨last, shown, ends⟩ := ih ⟨other, later, terminal⟩
        exact ⟨last, List.mem_cons_of_mem _ shown, ends⟩

end Events

section Relation

/-- Marks that tell nothing of the events in the scheduler's hands. -/
def Mark.untaken : Mark → Bool
  | .polled .. | .applied .. | .restarted => false
  | _ => true

theorem untaken_of_ofTurn {mark : Mark} (aside : mark.ofTurn = false) : mark.untaken = true := by
  cases mark with
  | polled _ _ _ | applied _ _ _ _ | restarted => cases aside
  | _ => rfl

/-- Events are neither taken nor applied. -/
structure Untaken (w w' : World) : Prop where
  grows : w.history <:+ w'.history
  taken : ∀ turn, takenFor turn w'.history = takenFor turn w.history
  applied : ∀ turn, appliedTo turn w'.history = appliedTo turn w.history

namespace Untaken

theorem same (history : w'.history = w.history) : Untaken w w' := by
  constructor
  · exact history ▸ List.suffix_refl _
  · exact fun _ => by rw [history]
  · exact fun _ => by rw [history]

theorem marked {marks : List Mark} (aside : ∀ mark ∈ marks, mark.untaken = true)
    (history : w'.history = marks ++ w.history) : Untaken w w' := by
  have unseen : ∀ {f : List Mark → List EngineEvent},
      (∀ mark earlier, mark.untaken = true → f (mark :: earlier) = f earlier) →
      f (marks ++ w.history) = f w.history := by
    intro f past
    clear history
    induction marks with
    | nil => rfl
    | cons mark rest ih =>
      have others := ih fun other inside => aside other (List.mem_cons_of_mem _ inside)
      exact (past mark _ (aside mark List.mem_cons_self)).trans others
  constructor
  · rw [history]
    exact List.suffix_append _ _
  · intro turn
    rw [history]
    apply unseen
    intro mark earlier apart
    cases mark with
    | polled _ _ _ | restarted => cases apart
    | _ => rfl
  · intro turn
    rw [history]
    apply unseen
    intro mark earlier apart
    cases mark with
    | applied _ _ _ _ | restarted => cases apart
    | _ => rfl

theorem one {mark : Mark} (aside : mark.untaken = true) (history : w'.history = mark :: w.history) :
    Untaken w w' := by
  have aside' : ∀ other ∈ [mark], other.untaken = true := List.forall_mem_singleton.mpr aside
  exact marked aside' history

theorem trans {w'' : World} (first : Untaken w w') (second : Untaken w' w'') : Untaken w w'' :=
  ⟨first.grows.trans second.grows, fun turn => (second.taken turn).trans (first.taken turn),
    fun turn => (second.applied turn).trans (first.applied turn)⟩

end Untaken

instance : Admits Untaken where
  deed deed := by
    have aside : ∀ {marks : List Mark}, (∀ mark ∈ marks, mark.ofTurn = false) →
        ∀ mark ∈ marks, mark.untaken = true :=
      fun mild mark inside => untaken_of_ofTurn (mild mark inside)
    cases deed with
    | quiet same => exact .same same.history
    | event draft => exact .same rfl
    | job id f marks keeps mild => exact .marked (aside mild) rfl
    | thread id f marks keeps mild => exact .marked (aside mild) rfl
    | line row event => exact .one rfl rfl
    | schedule f marks lands mild => exact .marked (aside mild) rfl
    | cancels c => exact .same rfl
  trans := .trans
  undone _ := .same rfl

/-- Nobody but the scheduler takes or applies events. -/
theorem Calm.untaken (step : Calm w w') : Untaken w w' := by
  cases step with
  | quiet same => exact .same same.history
  | journal _ _ _ _ | moved _ _ _ _ _ _ _ | recorded _ _ _ | cancelled _ _ _ | stopped _ | died _
  | emitted _ _ _ _ => exact .one rfl rfl
  | _ => exact .same rfl

theorem others_untaken (step : others Steps .main w w') : Untaken w w' := by
  obtain ⟨actor, other, running, steps⟩ := step
  have lasts : Stable (others Steps .main) (Untaken w) :=
    Robust.stable fun _ _ step untaken => untaken.trans step.untaken
  exact lasts w w' ⟨actor, other, running, steps⟩ (.same rfl)

end Relation

section Assertions
variable {events : List (Nat × EngineEvent)} {event : Nat × EngineEvent}

/-- What was taken for the turn was applied to it. -/
def Even (turn : Nat) (history : List Mark) : Prop :=
  upToEnd (appliedTo turn history) = upToEnd (takenFor turn history)

/-- The scheduler has no event in its hands. -/
def Caught (w : World) : Prop := Each Unbroken w.history → ∀ turn, Even turn w.history

/-- The scheduler is about to apply the events to the turn. -/
def Pending (turn : Nat) (events : List (Nat × EngineEvent)) (w : World) : Prop :=
  Each Unbroken w.history → (∀ other, other ≠ turn → Even other w.history) ∧
    upToEnd (appliedTo turn w.history ++ events.map (·.2)) = upToEnd (takenFor turn w.history)

theorem Caught.untaken (caught : Caught w) (untaken : Untaken w w') : Caught w' := by
  intro unbroken turn
  rw [Even, untaken.taken, untaken.applied]
  exact caught (unbroken.suffix untaken.grows) turn

theorem Pending.untaken (pending : Pending turn events w) (untaken : Untaken w w') :
    Pending turn events w' := by
  intro unbroken
  obtain ⟨others, own⟩ := pending (unbroken.suffix untaken.grows)
  simp only [Even, untaken.taken, untaken.applied]
  exact ⟨others, own⟩

theorem Pending.caught (pending : Pending turn [] w) : Caught w := by
  intro unbroken other
  obtain ⟨others, own⟩ := pending unbroken
  by_cases same : other = turn
  · subst same
    simpa [Even] using own
  · exact others other same

theorem takenFor_polls {history : List Mark} {other : Nat} :
    takenFor other (polls turn events ++ history) =
      takenFor other history ++ if turn = other then events.map (·.2) else [] := by
  induction events generalizing history with
  | nil => simp [polls]
  | cons event rest ih =>
    have split : polls turn (event :: rest) ++ history =
        polls turn rest ++ .polled turn event.1 event.2 :: history := by simp [polls]
    rw [split, ih, takenFor]
    by_cases same : turn = other <;> simp [same]

theorem appliedTo_polls {history : List Mark} {other : Nat} :
    appliedTo other (polls turn events ++ history) = appliedTo other history := by
  induction events generalizing history with
  | nil => simp [polls]
  | cons event rest ih =>
    have split : polls turn (event :: rest) ++ history =
        polls turn rest ++ .polled turn event.1 event.2 :: history := by simp [polls]
    rw [split]
    exact ih

/-- The events of a poll wait to be applied. -/
theorem Caught.polled {w : World} (caught : Caught w) (turn : InFlightTurn) :
    ∃ events w', (poll turn).exec w = (.ok events, w') ∧ Pending turn.turn events w' := by
  cases there : w.memory.scheduler.engine turn.cell with
  | none =>
    refine ⟨[], w, by simp [poll, there], fun unbroken => ?_⟩
    have even := caught unbroken
    exact ⟨fun other _ => even other, by simpa [Even] using even turn.turn⟩
  | some e =>
    have history : ((poll turn).exec w).2.history = polls turn.turn e.outbox ++ w.history := by
      simp [poll, there, polls]
    refine ⟨e.outbox, _, Prod.ext (by simp [poll, there]) rfl, fun unbroken => ?_⟩
    rw [history] at unbroken ⊢
    have even := caught (unbroken.suffix (List.suffix_append _ _))
    constructor
    · intro other apart
      simp only [Even, takenFor_polls, appliedTo_polls, if_neg (Ne.symm apart), List.append_nil]
      exact even other
    · rw [takenFor_polls, appliedTo_polls, if_pos rfl]
      exact upToEnd_congr (even turn.turn)

/-- The first event is applied. -/
theorem Pending.applied (pending : Pending turn (event :: events) w) :
    Pending turn events ((apply turn event).exec w).2 := by
  intro unbroken
  obtain ⟨others, own⟩ := pending unbroken.1
  constructor
  · intro other apart
    simpa [apply, Even, takenFor, appliedTo, Ne.symm apart] using others other apart
  · simpa [apply, takenFor, appliedTo] using own

/-- What waits behind the end of a turn is dropped. -/
theorem Pending.ended (pending : Pending turn (event :: events) w)
    (ends : event.2.terminal = true) : Caught ((apply turn event).exec w).2 := by
  have short : Pending turn [event] w := by
    intro unbroken
    obtain ⟨others, own⟩ := pending unbroken
    refine ⟨others, Eq.trans ?_ own⟩
    have cut : upToEnd (appliedTo turn w.history ++ [event.2] ++ events.map (·.2)) =
        upToEnd (appliedTo turn w.history ++ [event.2]) := upToEnd_of_ended ⟨event.2, by simp, ends⟩
    simpa using cut.symm
  exact short.applied.caught

end Assertions

section Jobs
variable {self actor : Actor}

/-- The job of every turn in flight is in the table. -/
def Staffed (w : World) : Prop := ∀ entry ∈ w.memory.scheduler.inFlight,
  ∃ j ∈ w.store.jobs, j.jobId = entry.2.jobId

/-- No job is ever taken out of the table. -/
theorem JobStep.lasts {jobs : List CellJob} {history : List Mark} (step : JobStep w jobs history)
    (member : j ∈ w.store.jobs) : ∃ j' ∈ jobs, j'.jobId = j.jobId := by
  have updated : ∀ {id : String} {f : CellJob → CellJob}, (∀ j, (f j).fixed = j.fixed) →
      ∃ j' ∈ (w.store.updateJob id f).jobs, j'.jobId = j.jobId := by
    intro id f keeps
    have kept : ∀ old ∈ w.store.jobs, ∃ j ∈ (w.store.updateJob id f).jobs, j.fixed = old.fixed :=
      (fixed_updateJob keeps).1
    obtain ⟨j', inside, same⟩ := kept j member
    exact ⟨j', inside, (CellJob.fixed_inj same).1⟩
  cases step with
  | aside marks _ => exact ⟨j, member, rfl⟩
  | enqueued job _ => exact ⟨j, List.mem_append_left _ member, rfl⟩
  | accepted id now engineTurnId => exact updated fun _ => rfl
  | leased row expires _ _ _ => exact updated (f := .leasedUntil expires) fun _ => rfl
  | begun row _ _ | finished row _ _ | cancelled row _ _ =>
    exact updated (f := .setState _) fun _ => rfl
  | requeued id _ => exact updated (f := CellJob.requeue) fun _ => rfl

theorem Statement.staffed (step : Statement self w w') (staffed : Staffed w) : Staffed w' := by
  have kept : (∀ entry ∈ w'.memory.scheduler.inFlight, ∃ old ∈ w.memory.scheduler.inFlight,
      entry.2.jobId = old.2.jobId) → Staffed w' := by
    intro turns entry flying
    obtain ⟨old, before, same⟩ := turns entry flying
    obtain ⟨j, stored, named⟩ := staffed old before
    obtain ⟨j', still, one⟩ := step.jobStep.lasts stored
    exact ⟨j', still, one.trans (named.trans same.symm)⟩
  cases step with
  | calm step => exact kept (by rw [step.inFlight]; exact fun entry flying => ⟨entry, flying, rfl⟩)
  | polled threadId turn _ _ =>
    exact kept (by rw [(poll_leaves turn w).2]; exact fun entry flying => ⟨entry, flying, rfl⟩)
  | launched job cell nowNanos ok _ startable _ _ _ =>
    cases ok with
    | false => exact kept fun entry flying => ⟨entry, flying, rfl⟩
    | true =>
      intro entry flying
      rcases mem_put.mp flying with rfl | ⟨before, _⟩
      · exact startable.known
      · exact staffed entry before
  | updatedTurn threadId f _ keeps =>
    refine kept fun entry flying => ?_
    obtain ⟨old, before, rfl⟩ := mem_alter.mp flying
    refine ⟨old, before, ?_⟩
    split
    · exact (keeps old.2).2.2
    · rfl
  | landed threadId _ _ => exact kept fun entry flying => ⟨entry, (mem_without.mp flying).1, rfl⟩
  | dropped cell _ _ => exact kept fun entry flying => ⟨entry, (List.mem_filter.mp flying).1, rfl⟩
  | overdue threadId _ =>
    revert kept
    simp only [takeTurn, Action.exec_step]
    split
    · exact fun _ => staffed
    · exact fun kept => kept fun entry flying => ⟨entry, (mem_without.mp flying).1, rfl⟩
  | restarted acl _ => exact fun _ flying => by cases flying
  | _ => exact kept fun entry flying => ⟨entry, flying, rfl⟩

/-- What the drain of a turn relies on. -/
def Well (w : World) : Prop := Good w ∧ Staffed w

theorem Steps.well (steps : Steps actor w w') (well : Well w) : Well w' := by
  induction steps with
  | refl => exact well
  | tail _ last ih => exact ⟨Steps.good (.single last) ih.1, last.staffed ih.2⟩

end Jobs

section Works
variable {st : Store} {threadId jobId : String} {α : Type}

end Works

section Ticks
variable {α β : Type} {P : World → Prop} {Q : α → World → Prop} {h : Handler α}
  {event : Nat × EngineEvent} {events : List (Nat × EngineEvent)} {threadId cell : String}

/-- An answer leaves its assertion, an error no event in the scheduler's hands. -/
def caughtOr (Q : α → World → Prop) : Except BusError α → World → Prop
  | .ok a, w => Q a w
  | .error _, w => Caught w

/-- A part of the tick, beside others who neither take nor apply events. -/
abbrev Catches (P : World → Prop) (h : Handler α) (Q : α → World → Prop) : Prop :=
  Safe Well (others Steps .main) (fun _ _ => True) (caughtOr Q) h.run P

theorem Catches.bind {f : α → Handler β} {Q' : β → World → Prop} (first : Catches P h Q)
    (rest : ∀ a, Catches (Q a) (f a) Q') : Catches P (h >>= f) Q' := by
  refine Safe.bind first fun r => ?_
  cases r with
  | ok a => exact rest a
  | error e => exact fun _ _ caught => caught

theorem Catches.pure {a : α} (holds : ∀ w, P w → Q a w) : Catches P (Pure.pure a : Handler α) Q :=
  fun w _ now => holds w now

theorem Catches.forM {xs : List β} {f : β → Handler PUnit}
    (each : ∀ x, Catches P (f x) (fun _ => P)) : Catches P (xs.forM f) (fun _ => P) := by
  induction xs with
  | nil => exact .pure fun _ now => now
  | cons x xs ih => exact (each x).bind fun _ => ih

/-- A part that takes and applies nothing. -/
theorem Catches.untaken (untaken : Throughout Untaken h) : Catches Caught h (fun _ => Caught) := by
  have guarded : Safe Well (others Steps .main) Untaken (fun _ _ => True) h.run (fun _ => True) :=
    Process.Along.safe (untaken [])
  have kept := guarded.keep (I := Caught) (fun _ _ step caught => caught.untaken (others_untaken step))
    fun _ _ untaken caught => caught.untaken untaken
  refine ((kept.mono (fun _ _ step => step) fun _ _ _ => trivial).post
    fun r w _ holds => ?_).weaken fun _ _ caught => ⟨trivial, caught⟩
  cases r <;> exact holds.2

/-- A section from its assertions. -/
theorem Catches.locked {m : Act α}
    (stable : ∀ a, Stable (others Steps .main) (Q a))
    (holds : ∀ i w, Well w → P w → caughtOr Q (m.exec (w.install i)).1 (m.exec (w.install i)).2) :
    Catches P (Crewd.locked m) Q := by
  apply Safe.critical
  · intro r
    cases r with
    | ok a => exact stable a
    | error e => exact fun _ _ step caught => caught.untaken (others_untaken step)
  · exact fun _ _ _ _ => trivial
  · exact holds

variable [Platform] {c : FabricConfig}

end Ticks
end Crewd.Fabric
