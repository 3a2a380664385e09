import Crewd.Fabric.Sections
import Crewd.Lib.History

/-! Every tool call and the scheduler's tick, section by section: they take
elementary steps only, and what the scheduler relies on between two sections
survives whatever handlers and engines do. -/
namespace Crewd.Fabric
open Autocommit Concurrent History Table

variable {α β : Type} {self : Actor} {P : World → Prop}

section Growth

/-- Neither marks nor spawn requests are ever taken back. -/
structure Grows (w w' : World) : Prop where
  history : w.history <:+ w'.history
  requests : ∀ r ∈ w.store.spawnRequests, r ∈ w'.store.spawnRequests

theorem Calm.grows (step : Calm w w') : Grows w w' := by
  cases step with
  | quiet same => exact ⟨same.history ▸ List.suffix_refl _, same.store ▸ fun _ h => h⟩
  | moved _ _ _ _ _ _ _ | recorded _ _ _ | emitted _ _ _ _ | cancelled _ _ _ | journal _ _ _ _
  | stopped _ | died _ =>
    exact ⟨List.suffix_cons _ _, fun _ h => h⟩
  | spawned _ _ _ _ _ => exact ⟨List.suffix_refl _, fun _ h => List.mem_append_left _ h⟩
  | _ => exact ⟨List.suffix_refl _, fun _ h => h⟩

theorem Statement.grows (step : Statement self w w') : Grows w w' := by
  cases step with
  | calm step => exact step.grows
  | leased _ _ _ _ _ _ | begun _ _ _ _ | running _ _ _ _ _ _ _ _ _ _ | finished _ _ _ _
  | requeued _ _ _ | launched _ _ _ _ _ _ _ _ _ | restarted _ _ | made _ _ _ _ _ _
  | attached _ _ _ _ _ _ _ | applied _ _ _ _ _ =>
    exact ⟨List.suffix_cons _ _, fun _ h => h⟩
  | polled threadId turn _ _ =>
    simp only [poll, Action.exec_step]
    split
    · exact ⟨List.suffix_refl _, fun _ h => h⟩
    · exact ⟨List.suffix_append _ _, fun _ h => h⟩
  | overdue threadId _ =>
    simp only [takeTurn, Action.exec_step]
    split
    · exact ⟨List.suffix_refl _, fun _ h => h⟩
    · exact ⟨List.suffix_cons _ _, fun _ h => h⟩
  | _ => exact ⟨List.suffix_refl _, fun _ h => h⟩

/-- What is known when the mark is made; of most marks nothing is needed here. -/
def Warrants (self : Actor) (w : World) : Mark → Prop
  | .started jobId _ _ _ turn _ => self = .main ∧ ¬ Spent jobId w.history ∧ turn = w.history.length
  | .moved id _ .running _ => ∃ row earlier, w.history = .wrote row .started :: earlier ∧
      row.crewdThreadId = id
  | _ => True

/-- The marks of a poll, the latest first. -/
def polls (turn : Nat) (events : List (Nat × EngineEvent)) : List Mark :=
  (events.map fun event => .polled turn event.1 event.2).reverse

/-- What an elementary step may do to the history. -/
inductive Extends (self : Actor) (w : World) : List Mark → Prop where
  | same : Extends self w w.history
  | polled (turn : Nat) (events) : Extends self w (polls turn events ++ w.history)
  | marked (mark : Mark) : Warrants self w mark → Extends self w (mark :: w.history)

theorem Calm.extends (step : Calm w w') : Extends self w w'.history := by
  cases step with
  | quiet same => exact same.history ▸ .same
  | moved id now t target _ _ idle =>
    apply Extends.marked
    cases target with
    | running => exact absurd rfl idle
    | _ => trivial
  | cancelled _ _ _ | recorded _ _ _ | emitted _ _ _ _ | journal _ _ _ _ | stopped _ | died _ =>
    exact .marked _ trivial
  | _ => exact .same

theorem Statement.extends (step : Statement self w w') : Extends self w w'.history := by
  cases step with
  | calm step => exact step.extends
  | running id now t row earlier _ _ _ history own => exact .marked _ ⟨row, earlier, history, own⟩
  | launched job cell nowNanos ok main startable _ _ _ => exact .marked _ ⟨main, startable.unspent, rfl⟩
  | leased _ _ _ _ _ _ | begun _ _ _ _ | finished _ _ _ _ | requeued _ _ _
  | restarted _ _ | made _ _ _ _ _ _ | attached _ _ _ _ _ _ _ | applied _ _ _ _ _ =>
    exact .marked _ trivial
  | polled threadId turn _ _ =>
    simp only [poll, Action.exec_step]
    split
    · exact .same
    · exact .polled _ _
  | overdue threadId _ =>
    simp only [takeTurn, Action.exec_step]
    split
    · exact .same
    · exact .marked _ trivial
  | _ => exact .same

/-- A condition on each mark that polls meet, and that follows from what is known when
another mark is made. -/
theorem Statement.each {fits : List Mark → Mark → Prop} (step : Statement self w w')
    (read : ∀ earlier turn tag event, fits earlier (.polled turn tag event))
    (made : ∀ mark, Warrants self w mark → fits w.history mark)
    (each : Each fits w.history) : Each fits w'.history := by
  have extended := step.extends
  generalize w'.history = later at extended ⊢
  cases extended with
  | same => exact each
  | marked mark warrants => exact ⟨each, made mark warrants⟩
  | polled turn events =>
    apply each.append
    intro mark inside earlier
    obtain ⟨event, _, rfl⟩ := List.mem_map.mp (List.mem_reverse.mp inside)
    exact read earlier turn event.1 event.2

/-- A condition on each mark that polls meet. -/
theorem poll_each {fits : List Mark → Mark → Prop}
    (read : ∀ earlier turn tag event, fits earlier (.polled turn tag event)) (turn : InFlightTurn)
    (each : Each fits w.history) : Each fits ((poll turn).exec w).2.history := by
  simp only [poll, Action.exec_step]
  split
  · exact each
  · apply each.append
    intro mark inside earlier
    obtain ⟨event, _, rfl⟩ := List.mem_map.mp (List.mem_reverse.mp inside)
    exact read earlier turn.turn event.1 event.2

/-- Every recorded spawn has its request in the table. -/
def Recalls (w : World) : Prop := ∀ task call, Mark.spawned task call ∈ w.history →
  ∃ r ∈ w.store.spawnRequests,
    r.is call.caller call.target.cellName call.idempotencyKey = true ∧
      r.crewdThreadId = call.crewdThreadId

private theorem Recalls.grow (recalls : Recalls w) (grows : Grows w w')
    (marks : ∀ task call, Mark.spawned task call ∈ w'.history →
      Mark.spawned task call ∈ w.history) : Recalls w' := by
  intro task call h
  obtain ⟨r, member, same⟩ := recalls task call (marks task call h)
  exact ⟨r, grows.requests r member, same⟩

theorem Calm.recalls (step : Calm w w') (recalls : Recalls w) : Recalls w' := by
  have grows := step.grows
  cases step with
  | quiet same => exact recalls.grow grows fun _ _ h => same.history ▸ h
  | recorded task call recorded =>
    intro task' call' h
    rcases List.mem_cons.mp h with this | before
    · cases this; exact recorded.row
    · exact recalls task' call' before
  | moved _ _ _ _ _ _ _ | emitted _ _ _ _ | cancelled _ _ _ | journal _ _ _ _ | stopped _
  | died _ =>
    exact recalls.grow grows fun _ _ h => by
      rcases List.mem_cons.mp h with this | before
      · cases this
      · exact before
  | _ => exact recalls.grow grows fun _ _ h => h

theorem Statement.recalls (step : Statement self w w') (recalls : Recalls w) : Recalls w' := by
  have grows := step.grows
  cases step with
  | calm step => exact step.recalls recalls
  | leased _ _ _ _ _ _ | begun _ _ _ _ | running _ _ _ _ _ _ _ _ _ _ | finished _ _ _ _
  | requeued _ _ _ | launched _ _ _ _ _ _ _ _ _ | restarted _ _ | made _ _ _ _ _ _
  | attached _ _ _ _ _ _ _ | applied _ _ _ _ _ =>
    exact recalls.grow grows fun _ _ h => by
      rcases List.mem_cons.mp h with this | before
      · cases this
      · exact before
  | polled threadId turn _ _ =>
    refine recalls.grow grows fun task call h => ?_
    revert h
    simp only [poll, Action.exec_step]
    split
    · exact fun h => h
    · intro h
      rcases List.mem_append.mp h with new | old
      · simp at new
      · exact old
  | overdue threadId _ =>
    refine recalls.grow grows fun task call h => ?_
    revert h
    simp only [takeTurn, Action.exec_step]
    split
    · exact fun h => h
    · exact fun h => by simpa using h
  | _ => exact recalls.grow grows fun _ _ h => h

/-- Every turn in flight was taken by its engine, for a job that was marked started. -/
structure Underway (w : World) : Prop where
  launched : ∀ entry ∈ w.memory.scheduler.inFlight,
    ∃ context, Mark.started entry.2.jobId entry.1 entry.2.cell context entry.2.turn true ∈ w.history
  begun : ∀ entry ∈ w.memory.scheduler.inFlight, Begun entry.2.jobId w.history

theorem Begun.grow {jobId : String} {history later : List Mark} (begun : Begun jobId history)
    (grows : history <:+ later) : Begun jobId later := by
  obtain ⟨row, marked, named⟩ := begun
  exact ⟨row, grows.subset marked, named⟩

/-- Turns that were in flight before. -/
theorem Underway.grow (underway : Underway w) (grows : Grows w w')
    (turns : ∀ entry ∈ w'.memory.scheduler.inFlight, ∃ old ∈ w.memory.scheduler.inFlight,
      entry.1 = old.1 ∧ entry.2.cell = old.2.cell ∧ entry.2.turn = old.2.turn ∧
        entry.2.jobId = old.2.jobId) : Underway w' := by
  constructor
  · intro entry inside
    obtain ⟨old, before, thread, cell, turn, job⟩ := turns entry inside
    obtain ⟨context, marked⟩ := underway.launched old before
    rw [thread, cell, turn, job]
    exact ⟨context, grows.history.subset marked⟩
  · intro entry inside
    obtain ⟨old, before, _, _, _, job⟩ := turns entry inside
    rw [job]
    exact (underway.begun old before).grow grows.history

theorem Statement.underway (step : Statement self w w') (underway : Underway w) : Underway w' := by
  have grows := step.grows
  have kept : (∀ entry ∈ w'.memory.scheduler.inFlight, entry ∈ w.memory.scheduler.inFlight) →
      Underway w' :=
    fun sub => underway.grow grows fun entry inside => ⟨entry, sub entry inside, rfl, rfl, rfl, rfl⟩
  cases step with
  | calm step => exact kept (by rw [step.inFlight]; exact fun _ inside => inside)
  | polled threadId turn _ _ =>
    exact kept (by rw [(poll_leaves turn w).2]; exact fun _ inside => inside)
  | launched job cell nowNanos ok _ _ begun _ _ =>
    cases ok with
    | false => exact kept fun _ inside => inside
    | true =>
      constructor
      · intro entry inside
        rcases mem_put.mp inside with rfl | ⟨before, _⟩
        · exact ⟨_, List.mem_cons_self⟩
        · obtain ⟨context, marked⟩ := underway.launched entry before
          exact ⟨context, List.mem_cons_of_mem _ marked⟩
      · intro entry inside
        rcases mem_put.mp inside with rfl | ⟨before, _⟩
        · exact begun.grow grows.history
        · exact (underway.begun entry before).grow grows.history
  | updatedTurn threadId f _ keeps =>
    refine underway.grow grows fun entry inside => ?_
    obtain ⟨old, before, rfl⟩ := mem_alter.mp inside
    refine ⟨old, before, ?_⟩
    split
    · exact ⟨rfl, keeps old.2⟩
    · exact ⟨rfl, rfl, rfl, rfl⟩
  | landed threadId _ _ => exact kept fun entry inside => (mem_without.mp inside).1
  | dropped cell _ _ => exact kept fun entry inside => (List.mem_filter.mp inside).1
  | overdue threadId _ =>
    revert kept
    simp only [takeTurn, Action.exec_step]
    split
    · exact fun _ => underway
    · exact fun kept => kept fun entry inside => (mem_without.mp inside).1
  | restarted acl _ => exact kept fun entry inside => by cases inside
  | _ => exact kept fun _ inside => inside

end Growth

/-- What holds between any two steps. -/
def Good (w : World) : Prop := Inv w ∧ Recalls w ∧ Underway w

/-- The steps an actor may take in one section. -/
def Steps (actor : Actor) : World → World → Prop := Relation.ReflTransGen (Statement actor)

theorem Steps.good (steps : Steps actor w w') (good : Good w) : Good w' := by
  induction steps with
  | refl => exact good
  | tail _ last ih => exact ⟨last.inv ih.1, last.recalls ih.2.1, last.underway ih.2.2⟩

theorem Steps.grows (steps : Steps actor w w') : Grows w w' := by
  induction steps with
  | refl => exact ⟨List.suffix_refl _, fun _ h => h⟩
  | tail _ last ih =>
    exact ⟨ih.history.trans last.grows.history, fun r h => last.grows.requests r (ih.requests r h)⟩

theorem Statement.ofQuiet (w w' : World) (same : w.Quiet w') : Statement self w w' :=
  .calm (.quiet same)

theorem Calmly.statements {m : Act α} (calmly : Calmly m) :
    Meets (Statement self) (fun _ => True) m (fun _ _ => True) := calmly.mono fun _ _ => .calm

section Follow

/-- The handler keeps to the elementary steps of its actor. -/
abbrev Follows (self : Actor) (P : World → Prop) (h : Handler α) (Q : α → World → Prop) : Prop :=
  Runs Good (others Steps self) (Statement self) P h Q

/-- Nothing to remember between the sections. -/
abbrev Plain (self : Actor) (h : Handler α) : Prop :=
  Follows self (fun _ => True) h (fun _ _ => True)

/-- No calm step makes the assertion false. -/
def Robust (P : World → Prop) : Prop := ∀ w w', Calm w w' → P w → P w'

theorem Robust.trivial : Robust fun _ => True := fun _ _ _ _ => True.intro

theorem Robust.and {Q : World → Prop} (robust : Robust P) (robust' : Robust Q) :
    Robust fun w => P w ∧ Q w :=
  fun w w' step h => ⟨robust w w' step h.1, robust' w w' step h.2⟩

theorem Robust.calms (robust : Robust P) {m : Act α} {Q : α → World → Prop}
    (met : Meets Calm P m Q) : Meets Calm P m (fun a w => Q a w ∧ P w) :=
  (met.keep robust).weaken (fun _ h => ⟨h, h⟩) fun _ _ h => h

/-- Besides the scheduler and restarts, everybody takes calm steps only. -/
theorem Robust.stable (robust : Robust P) : Stable (others Steps .main) P := by
  rintro w w' ⟨actor, other, running, steps⟩ holds
  induction steps with
  | refl => exact holds
  | tail _ last ih =>
    cases last with
    | calm step => exact robust _ _ step ih
    | leased _ _ own | begun _ own | running _ _ _ _ _ own | finished _ own | requeued _ own
    | launched _ _ _ _ own | made _ _ _ own | attached _ _ _ own | persisted _ _ _ own
    | updatedTurn _ _ own | landed _ own | dropped _ own
    | overdue _ own | polled _ _ own | applied _ _ _ own => exact absurd own other
    | restarted _ own => exact absurd own running

theorem quiet_of_at {w w' : World} (here : w'.At w.snapshot) : w.Quiet w' :=
  ⟨here.store, here.audit, here.memory, here.history, here.minted⟩

/-- A section of the scheduler, from the invariant and what it remembers. -/
theorem follows_locked {m : Act α} {Q : α → World → Prop} (robust : Robust P)
    (stable : ∀ a, Robust (Q a))
    (met : Meets (Statement .main) (fun w => Good w ∧ P w) m Q) :
    Follows .main P (Crewd.locked m) Q := by
  refine Runs.locked Statement.ofQuiet (fun a => (stable a).stable) fun w good holds => ?_
  refine met.weaken (fun w' here => ?_) fun _ _ h => h
  have same := quiet_of_at here
  have still : Steps .main w w' := .single (.calm (.quiet same))
  exact ⟨still.good good, robust _ _ (.quiet same) holds⟩

theorem follows_calmly {m : Act α} (robust : Robust P) (calmly : Calmly m) :
    Follows .main P (Crewd.locked m) (fun _ => P) := by
  refine follows_locked robust (fun _ => robust) ?_
  refine (robust.calms (calmly.weaken (fun _ _ => trivial) fun _ _ _ => trivial)).mono
    (fun _ _ => .calm) |>.weaken (fun _ h => h.2) fun _ _ h => h.2

theorem Plain.locked {m : Act α}
    (met : ∀ w, Good w → Meets (Statement self) (·.At w.snapshot) m (fun _ _ => True)) :
    Plain self (Crewd.locked m) :=
  Runs.locked Statement.ofQuiet (fun _ _ _ _ _ => trivial) fun w good _ => met w good

theorem Plain.calmly {m : Act α} (calmly : Calmly m) : Plain self (Crewd.locked m) :=
  .locked fun _ _ => calmly.statements.weaken (fun _ _ => trivial) fun _ _ _ => trivial

theorem Plain.silent {m : Act α} (silent : Silent m) : Plain self (Crewd.locked m) :=
  .calmly (.of_silent silent)

theorem Plain.pure {a : α} : Plain self (Pure.pure a : Handler α) := Runs.pure fun _ _ _ => trivial

theorem Plain.bind {h : Handler α} {f : α → Handler β} (first : Plain self h)
    (rest : ∀ a, Plain self (f a)) : Plain self (h >>= f) := Runs.bind first rest

theorem Plain.forM {xs : List β} {f : β → Handler PUnit} (each : ∀ x, Plain self (f x)) :
    Plain self (xs.forM f) := Runs.forM fun x _ => each x

end Follow

section Turns

/-- The turn of the thread, as long as it is in flight. -/
def Aboard (threadId : String) (turn : Nat) (cell : String) (w : World) : Prop :=
  ∀ t, (threadId, t) ∈ w.memory.scheduler.inFlight → t.turn = turn ∧ t.cell = cell

theorem Aboard.robust (threadId : String) (turn : Nat) (cell : String) :
    Robust (Aboard threadId turn cell) := by
  intro w w' step aboard t h
  rw [step.inFlight] at h
  exact aboard t h

/-- The thread has a turn in flight on the cell. -/
def Flying (threadId cell : String) (w : World) : Prop :=
  ∃ turn, (threadId, turn) ∈ w.memory.scheduler.inFlight ∧ turn.cell = cell

theorem Flying.robust (threadId cell : String) : Robust (Flying threadId cell) := by
  intro w w' step flying
  rw [Flying, step.inFlight]
  exact flying

/-- Steps that leave every turn in flight where it is. -/
structure Ground (w w' : World) : Prop where
  statement : Statement .main w w'
  aboard : ∀ threadId turn cell, Aboard threadId turn cell w → Aboard threadId turn cell w'
  flying : ∀ threadId cell, Flying threadId cell w → Flying threadId cell w'

theorem Ground.ofCalm (w w' : World) (step : Calm w w') : Ground w w' :=
  ⟨.calm step, fun _ _ _ => Aboard.robust _ _ _ _ _ step, fun _ _ => Flying.robust _ _ _ _ step⟩

/-- Steps that do not touch the turns in flight. -/
theorem Ground.still (statement : Statement .main w w')
    (same : w'.memory.scheduler.inFlight = w.memory.scheduler.inFlight) : Ground w w' := by
  constructor
  · exact statement
  · intro threadId turn cell aboard t inside
    rw [same] at inside
    exact aboard t inside
  · intro threadId cell flying
    rw [Flying, same]
    exact flying

def Grounded (m : Act α) : Prop := Meets Ground (fun _ => True) m (fun _ _ => True)

theorem Calmly.grounded {m : Act α} (calmly : Calmly m) : Grounded m := calmly.mono Ground.ofCalm

theorem Grounded.bind {m : Act α} {f : α → Act β} (first : Grounded m)
    (rest : ∀ a, Grounded (f a)) : Grounded (m >>= f) := Meets.bind first rest

theorem Grounded.ignore {m : Act α} (grounded : Grounded m) : Grounded (Action.ignore m) :=
  Meets.ignore grounded fun _ _ _ _ => trivial

theorem Grounded.updateTurn {threadId : String} {f : InFlightTurn → InFlightTurn}
    (keeps : ∀ t, (f t).cell = t.cell ∧ (f t).turn = t.turn ∧ (f t).jobId = t.jobId) :
    Grounded (updateScheduler (·.updateTurn threadId f)) := by
  refine Meets.step (fun w _ => ⟨.updatedTurn threadId f rfl keeps, ?_, ?_⟩) fun _ _ => trivial
  · intro id turn cell aboard t h
    obtain ⟨old, member, same⟩ := mem_alter.mp h
    split at same
    · cases same
      rw [(keeps old.2).1, (keeps old.2).2.1]
      exact aboard old.2 member
    · cases same
      exact aboard _ member
  · rintro id cell ⟨turn, member, inCell⟩
    by_cases named : id = threadId
    · refine ⟨f turn, mem_alter.mpr ⟨(id, turn), member, ?_⟩, (keeps turn).1.trans inCell⟩
      rw [if_pos named]
    · refine ⟨turn, mem_alter.mpr ⟨(id, turn), member, ?_⟩, inCell⟩
      rw [if_neg named]

/-- A job that was marked started is finished. -/
theorem jobFinish_grounds {id : String} :
    Meets Ground (fun w => Begun id w.history) (jobFinish id) (fun _ _ => True) := by
  refine meets_from fun w begun => ⟨_, w.at_snapshot, ?_⟩
  refine (jobSetState_meets (fun v v' same => .ofCalm v v' (.quiet same)) fun v row here found => ?_).weaken
    (fun _ h => h) fun _ _ _ => trivial
  obtain ⟨stored, named⟩ := job_of_find found
  refine .still (.finished row rfl ?_ ?_) rfl
  · rw [here.store]
    exact stored
  · rw [here.history, named]
    exact begun

theorem Grounded.jobRequeue {id : String} : Grounded (jobRequeue id) := by
  refine Grounded.bind (Calmly.of_silent .mayFail).grounded fun _ => ?_
  refine Meets.bind (Q := fun b w => b = w.store.jobs.any fun j => j.jobId = id ∧ j.unaccepted) ?_
    fun b => ?_
  · exact Meets.look (fun _ => rfl) fun _ _ => rfl
  · refine Meets.ite (fun here => ?_) fun _ => Meets.pure fun _ _ => trivial
    refine Meets.bind (Meets.step (Q := fun _ _ => True) (fun w any => ?_) fun _ _ => trivial)
      fun _ => Meets.pure fun _ _ => trivial
    obtain ⟨j, member, both⟩ := List.any_eq_true.mp (any.symm.trans here)
    have found := of_decide_eq_true both
    exact .still (.requeued id rfl ⟨j, member, found.1, found.2⟩) rfl

/-- The events of a batch were polled for the turn, which may still be aboard. -/
structure Draining (threadId : String) (turn : Nat) (cell : String)
    (events : List (Nat × EngineEvent)) (w : World) : Prop where
  aboard : Aboard threadId turn cell w
  flying : Flying threadId cell w
  polled : ∀ e ∈ events, Mark.polled turn e.1 e.2 ∈ w.history

variable {threadId cell jobId : String} {turn : Nat} {events : List (Nat × EngineEvent)}

theorem Draining.ground (draining : Draining threadId turn cell events w) (step : Ground w w') :
    Draining threadId turn cell events w' :=
  ⟨step.aboard _ _ _ draining.aboard, step.flying _ _ draining.flying,
    fun e h => step.statement.grows.history.subset (draining.polled e h)⟩

theorem Draining.robust : Robust (Draining threadId turn cell events) :=
  fun _ _ step draining => draining.ground (.ofCalm _ _ step)

theorem Draining.rest (draining : Draining threadId turn cell (event :: events) w) :
    Draining threadId turn cell events w :=
  ⟨draining.aboard, draining.flying, fun e h => draining.polled e (List.mem_cons_of_mem _ h)⟩

/-- The first statement on an event of the batch. -/
theorem apply_meets : Meets Ground (Draining threadId turn cell (event :: events)) (apply turn event)
    (fun _ _ => True) :=
  Meets.step (fun _ draining => .still (.applied turn event.1 event.2 rfl
    (draining.polled event List.mem_cons_self)) rfl) fun _ _ => trivial

theorem follows_grounded {m : Act α} (P : World → Prop) (robust : Robust P)
    (kept : ∀ w w', Ground w w' → P w → P w') (met : Meets Ground P m (fun _ _ => True)) :
    Follows .main P (locked m) (fun _ => P) := by
  refine follows_locked robust (fun _ => robust) ?_
  exact ((met.keep kept).mono fun _ _ step => step.statement).weaken (fun _ h => ⟨h.2, h.2⟩) fun _ _ h => h.2

theorem Begun.robust : Robust fun w => Begun jobId w.history :=
  fun _ _ step begun => begun.grow step.grows.history

/-- Calm steps with what was marked started before. -/
theorem Calmly.begun {m : Act α} (calmly : Calmly m) :
    Meets Ground (fun w => Begun jobId w.history) m (fun _ w => Begun jobId w.history) :=
  (calmly.grounded.keep fun _ _ step begun => begun.grow step.statement.grows.history).weaken
    (fun _ h => ⟨trivial, h⟩) fun _ _ h => h.2

/-- If there is a job, it was marked started. -/
def Settles (jobId : String) (w : World) : Prop := jobId ≠ "" → Begun jobId w.history

theorem Settles.robust : Robust (Settles jobId) :=
  fun _ _ step settles named => (settles named).grow step.grows.history

theorem Settles.ground (settles : Settles jobId w) (step : Ground w w') : Settles jobId w' :=
  fun named => (settles named).grow step.statement.grows.history

theorem settleFailed_grounds {accepted : Bool} {reason : String} :
    Meets Ground (Settles jobId) (settleFailed jobId accepted reason) (fun _ _ => True) := by
  have finishes : jobId ≠ "" →
      Meets Ground (Settles jobId) (jobFinish jobId) (fun _ _ => True) :=
    fun named => jobFinish_grounds.weaken (fun _ settles => settles named) fun _ _ h => h
  refine Meets.ite (fun _ => Meets.pure fun _ _ => trivial) fun named => ?_
  refine Meets.ite (fun _ => finishes named) fun _ => ?_
  refine Meets.ite (fun _ => finishes named) fun _ => ?_
  exact Grounded.jobRequeue.ignore.weaken (fun _ _ => trivial) fun _ _ h => h

theorem failTurn_follows (robust : Robust P) (kept : ∀ w w', Ground w w' → P w → P w')
    (settles : ∀ w, P w → Settles jobId w) {accepted : Bool} {error reason : String} :
    Follows .main P (failTurn threadId cell jobId accepted error reason) (fun _ => P) := by
  refine Runs.bind (follows_grounded P robust kept ?_) fun _ => follows_calmly robust .auditAppend
  refine Meets.bind (settleFailed_grounds.weaken settles fun _ _ h => h) fun _ => ?_
  exact (Calmly.threadTransition (by decide)).grounded

theorem failTurn_ends {accepted : Bool} {error reason : String} :
    Follows .main (Settles jobId) (failTurn threadId cell jobId accepted error reason)
      (fun _ _ => True) :=
  Runs.post (fun _ _ _ _ => trivial) (failTurn_follows Settles.robust
    (fun _ _ step h => h.ground step) fun _ h => h)

theorem acceptTurn_grounded (engineTurnId : String) :
    Grounded (acceptTurn threadId engineTurnId) := by
  refine Grounded.bind (Calmly.of_silent (.readMemory _)).grounded fun turn => ?_
  refine Grounded.bind ?_ fun _ => .updateTurn fun _ => ⟨rfl, rfl, rfl⟩
  cases turn with
  | none => exact (Calmly.pure ()).grounded
  | some turn =>
    refine Calmly.grounded (.bind (.jobMarkAccepted _) fun _ => ?_)
    exact .bind .threadSetEngineIds fun _ => .bind (.journalAppend _ (.accepted _)) fun _ => .pure _

/-- The ids of the engine are stored while its turn is in flight. -/
theorem persistEngineIds_grounds : Meets Ground (Flying threadId cell)
    (persistEngineIds threadId cell) (fun _ _ => True) := by
  have quiet : ∀ w w' : World, w.Quiet w' → Ground w w' := fun w w' same => .ofCalm w w' (.quiet same)
  refine meets_from fun w flying => ⟨_, w.at_snapshot, ?_⟩
  refine Meets.bind (Q := fun engine v => v.At w.snapshot ∧ engine = w.memory.scheduler.engine cell)
    (Meets.look (fun _ => rfl) fun v here => ⟨here, by rw [here.memory]; rfl⟩) fun engine =>
      meets_from fun v ⟨here, known⟩ => ⟨_, here, ?_⟩
  subst known
  refine Meets.ite (fun _ => ?_) fun _ => Meets.pure fun _ _ => trivial
  refine (Silent.nowRfc3339.meets quiet).bind fun time => Meets.weaken (fun _ h => h)
    (fun _ _ _ => trivial) (threadUpdate_meets quiet fun u here => ?_)
  refine .still (.persisted threadId cell _ rfl (fun _ => ⟨rfl, rfl, rfl⟩) ⟨?_, fun _ => ?_⟩) rfl
  · rw [here.memory]
    exact flying
  · rw [here.memory]
    rfl

/-- The job that is known was marked started. -/
def Completes (jobId : Option String) (w : World) : Prop :=
  ∀ id, jobId = some id → Begun id w.history

theorem Completes.robust {jobId : Option String} : Robust (Completes jobId) :=
  fun _ _ step completes id known => (completes id known).grow step.grows.history

theorem Completes.ground {jobId : Option String} (completes : Completes jobId w)
    (step : Ground w w') : Completes jobId w' :=
  fun id known => (completes id known).grow step.statement.grows.history

theorem completeTurn_grounds {jobId : Option String} {finalAnswer : String} :
    Meets Ground (Completes jobId) (completeTurn threadId jobId finalAnswer) (fun _ _ => True) := by
  refine Meets.bind (Q := fun _ => Completes jobId) ?_ fun _ => Meets.bind (Q := fun _ _ => True) ?_
    fun _ => (Calmly.threadTransition (by decide)).grounded
  · exact ((Calmly.journalAppend _ (.final _)).grounded.keep fun _ _ step h => h.ground step).weaken
      (fun _ h => ⟨trivial, h⟩) fun _ _ h => h.2
  · cases jobId with
    | none => exact Meets.pure fun _ _ => trivial
    | some jobId => exact jobFinish_grounds.weaken (fun _ h => h jobId rfl) fun _ _ h => h

/-- A section on an event of the batch, and what it learns from the turn in flight. -/
theorem drained_follows {m : Act α} {R : α → World → Prop} (robust : ∀ a, Robust (R a))
    (met : Meets Ground (fun w => Underway w ∧ Flying threadId cell w) m R) :
    Follows .main (Draining threadId turn cell (event :: events))
      (locked (do
        apply turn event
        m))
      (fun a w => Draining threadId turn cell (event :: events) w ∧ R a w) := by
  refine follows_locked Draining.robust (fun a => Draining.robust.and (robust a)) ?_
  have kept : ∀ w w', Ground w w' → Draining threadId turn cell (event :: events) w →
      Draining threadId turn cell (event :: events) w' := fun _ _ step h => h.ground step
  have applied : Meets Ground (fun w => Underway w ∧ Draining threadId turn cell (event :: events) w)
      (apply turn event)
      (fun _ w => Underway w ∧ Draining threadId turn cell (event :: events) w) := by
    refine ((apply_meets.weaken (fun _ h => h.2) fun _ _ h => h).keep (I := fun w => Underway w ∧
      Draining threadId turn cell (event :: events) w) fun w w' step h => ?_).weaken (fun _ h => ⟨h, h⟩)
      fun _ _ h => h.2
    exact ⟨step.statement.underway h.1, h.2.ground step⟩
  have rest : Meets Ground (fun w => Underway w ∧ Draining threadId turn cell (event :: events) w) m
      (fun a w => R a w ∧ Draining threadId turn cell (event :: events) w) :=
    (met.keep kept).weaken (fun _ h => ⟨⟨h.1, h.2.flying⟩, h.2⟩) fun _ _ h => h
  refine ((applied.bind fun _ => rest).mono fun _ _ step => step.statement).weaken ?_ ?_
  · exact fun _ h => ⟨h.1.2.2, h.2⟩
  · exact fun _ _ h => ⟨h.2, h.1⟩

/-- The job of the turn in flight, read before its ids are stored. -/
theorem endedTurn_grounds (threadId cell : String) :
    Meets Ground (fun w => Underway w ∧ Flying threadId cell w) (do
      let jobId ← readScheduler fun s => (s.turn threadId).map (·.jobId)
      persistEngineIds threadId cell
      pure jobId) Completes := by
  refine Meets.bind (Q := fun jobId w => Flying threadId cell w ∧ Completes jobId w)
    (Meets.look (fun _ => rfl) fun w h => ⟨h.2, fun id known => ?_⟩)
    fun jobId => Meets.bind (Q := fun _ => Completes jobId) ?_ fun _ => Meets.pure fun _ h => h
  · obtain ⟨t, found, rfl⟩ := Option.map_eq_some_iff.mp known
    exact h.1.begun _ (mem_of_lookup found)
  · exact (persistEngineIds_grounds.keep fun _ _ step h => h.ground step).weaken
      (fun _ h => h) fun _ _ h => h.2

theorem failedTurn_grounds : Meets Ground (fun w => Underway w ∧ Flying threadId cell w)
    (readScheduler fun s => (s.turn threadId).map fun t => (t.jobId, t.accepted))
    (fun found => Settles (found.getD ("", false)).1) := by
  refine Meets.look (fun _ => rfl) fun w ⟨underway, _⟩ named => ?_
  cases found : w.memory.scheduler.turn threadId with
  | none =>
    simp only [found] at named
    exact absurd rfl named
  | some t =>
    simp only [found]
    exact underway.begun _ (mem_of_lookup found)

/-- After a terminal event the turn may leave. -/
theorem land_meets {event : Nat × EngineEvent} (ends : event.2.terminal = true) :
    Meets (Statement .main) (Draining threadId turn cell (event :: events))
      (updateScheduler (·.land threadId)) (fun _ _ => True) := by
  refine Meets.step (fun _ draining => .landed threadId rfl fun t h => ?_) fun _ _ => trivial
  have same := (draining.aboard t h).1
  exact .inr ⟨event.1, event.2, ends, by
    rw [same]; exact draining.polled event List.mem_cons_self⟩

theorem drainEvents_follows : Follows .main (Draining threadId turn cell events)
    (drainEvents threadId cell turn events) (fun _ _ => True) := by
  induction events with
  | nil => exact Runs.pure fun _ _ _ => trivial
  | cons event rest ih =>
    obtain ⟨tag, event⟩ := event
    have kept : ∀ w w', Ground w w' → Draining threadId turn cell ((tag, event) :: rest) w →
        Draining threadId turn cell ((tag, event) :: rest) w' := fun _ _ step h => h.ground step
    have section_ : ∀ {α : Type} {m : Act α}, Grounded m →
        Meets Ground (Draining threadId turn cell ((tag, event) :: rest))
          (apply turn (tag, event) >>= fun _ => m) (fun _ _ => True) :=
      fun grounded => Meets.bind apply_meets fun _ => grounded
    cases event with
    | accepted engineTurnId =>
      refine Runs.bind (follows_grounded _ Draining.robust kept
        (section_ (acceptTurn_grounded engineTurnId))) fun _ => ?_
      exact Runs.weaken (fun _ _ h => h.rest) ih
    | note text =>
      refine Runs.bind (follows_grounded _ Draining.robust kept (section_ (Calmly.grounded
        (.bind (.journalAppend _ (.note _)) fun _ => .pure _)))) fun _ => ?_
      exact Runs.weaken (fun _ _ h => h.rest) ih
    | final finalAnswer =>
      refine Runs.bind (drained_follows (fun _ => Completes.robust) (endedTurn_grounds _ _)) fun jobId => ?_
      refine Runs.bind (follows_grounded _ (Draining.robust.and Completes.robust)
        (fun _ _ step h => ⟨h.1.ground step, h.2.ground step⟩)
        (completeTurn_grounds.weaken (fun _ h => h.2) fun _ _ h => h)) fun _ => ?_
      refine Runs.weaken (P := Draining threadId turn cell ((tag, .final finalAnswer) :: rest))
        (fun _ _ h => h.1) ?_
      refine follows_locked Draining.robust (fun _ => .trivial) (Meets.bind
        (Q := fun _ => Draining threadId turn cell ((tag, .final finalAnswer) :: rest)) ?_ fun _ =>
          land_meets rfl)
      exact ((Draining.robust.calms (Calmly.auditAppend.weaken (fun _ _ => trivial) fun _ _ h => h)).mono
        fun _ _ => .calm).weaken (fun _ h => h.2) fun _ _ h => h.2
    | failed error =>
      refine Runs.bind (drained_follows (fun _ => Settles.robust) failedTurn_grounds) fun found => ?_
      refine Runs.bind (failTurn_follows (Draining.robust.and Settles.robust)
        (fun _ _ step h => ⟨h.1.ground step, h.2.ground step⟩) fun _ h => h.2) fun _ => ?_
      refine Runs.weaken (P := Draining threadId turn cell ((tag, .failed error) :: rest))
        (fun _ _ h => h.1) ?_
      exact follows_locked Draining.robust (fun _ => .trivial)
        ((land_meets rfl).weaken (fun _ h => h.2) fun _ _ h => h)

end Turns
end Crewd.Fabric
