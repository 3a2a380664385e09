import Crewd.Courses
import Crewd.Fabric.Fifo

/-! The sections of the scheduler and of boot recovery, taken apart into deeds: updates of
rows and of what the scheduler holds, and marks. Only `start_turn` and the drain of a turn do
more, so what admits every deed holds of all other sections. -/
namespace Crewd.Fabric
open Autocommit Concurrent Table

def Mark.starts : Mark → Bool
  | .started .. => true
  | _ => false

/-- The marks of a turn that is started, of the events that are taken for it, and of a
restart, which ends all turns. -/
def Mark.ofTurn : Mark → Bool
  | .started .. | .polled .. | .applied .. | .restarted => true
  | _ => false

theorem starts_of_ofTurn {mark : Mark} (aside : mark.ofTurn = false) : mark.starts = false := by
  cases mark with
  | started _ _ _ _ _ _ => cases aside
  | _ => rfl

/-- No turn is added to those in flight on a cell. -/
def Lands (f : Scheduler → Scheduler) : Prop :=
  ∀ s, ∀ entry ∈ (f s).inFlight, ∃ old ∈ s.inFlight, old.2.cell = entry.2.cell

theorem Lands.same {f : Scheduler → Scheduler} (same : ∀ s, (f s).inFlight = s.inFlight) :
    Lands f := by
  intro s entry inside
  rw [same s] at inside
  exact ⟨entry, inside, rfl⟩

theorem Lands.land (threadId : String) : Lands (·.land threadId) :=
  fun _ entry inside => ⟨entry, (mem_without.mp inside).1, rfl⟩

theorem Lands.updateTurn {threadId : String} {f : InFlightTurn → InFlightTurn}
    (keeps : ∀ t, (f t).cell = t.cell) : Lands (·.updateTurn threadId f) := by
  intro s entry inside
  obtain ⟨old, before, rfl⟩ := mem_alter.mp inside
  refine ⟨old, before, ?_⟩
  split
  · exact (keeps old.2).symm
  · rfl

/-- What a section may do any number of times; the marks are of no turn. -/
inductive Deed : World → World → Prop where
  | quiet : w.Quiet w' → Deed w w'
  | event (draft) : Deed w { w with audit := w.audit ++ [draft] }
  | job (id : String) (f) (marks : List Mark) : (∀ j, (f j).fixed = j.fixed) →
      (∀ mark ∈ marks, mark.ofTurn = false) →
      Deed w { w with store := w.store.updateJob id f, history := marks ++ w.history }
  | thread (id : String) (f) (marks : List Mark) : (∀ t, (f t).fixed = t.fixed) →
      (∀ mark ∈ marks, mark.ofTurn = false) →
      Deed w { w with store := w.store.updateThread id f, history := marks ++ w.history }
  | line (row : JournalRow) (event : EngineEvent) : Deed w ((writeLine row event).exec w).2
  | schedule (f) (marks : List Mark) : Lands f → (∀ mark ∈ marks, mark.ofTurn = false) →
      Deed w { w with memory := w.memory.schedule f, history := marks ++ w.history }
  | cancels (c : List String) : Deed w { w with memory := { w.memory with cancels := c } }

/-- The relation covers deeds, also several, and those whose tables are rolled back. -/
class Admits (R : World → World → Prop) : Prop where
  deed {w w' : World} : Deed w w' → R w w'
  trans {w w' w'' : World} : R w w' → R w' w'' → R w w''
  undone {w w' : World} : R w w' → R w { w' with store := w.store, history := w.history }

variable {α β : Type} {R : World → World → Prop}

/-- Every run of the computation moves the state by the relation. -/
def Keeping (R : World → World → Prop) (m : Act α) : Prop := ∀ w, R w (m.exec w).2

/-- The relation covers the drain of a turn, too. -/
class Drains (R : World → World → Prop) : Prop extends Admits R where
  poll (turn : InFlightTurn) : Keeping R (poll turn)
  apply (turn : Nat) (event : Nat × EngineEvent) : Keeping R (apply turn event)

namespace Keeping
variable [Admits R] {m : Act α} {f : α → Act β}

theorem deeds {m : Act α} (deeds : ∀ w, Deed w (m.exec w).2) : Keeping R m :=
  fun w => Admits.deed (deeds w)

theorem silent (silent : Silent m) : Keeping R m := deeds fun w => .quiet (silent w)

theorem pure (a : α) : Keeping R (Pure.pure a : Act α) := silent (.pure a)

theorem throw (e : BusError) : Keeping R (MonadExcept.throw e : Act α) := silent (.throw e)

theorem query (f : Store → α) : Keeping R (query f) := silent (.query f)

theorem bind (first : Keeping R m) (rest : ∀ a, Keeping R (f a)) :
    Keeping R (m >>= f) := by
  intro w
  have moved := first w
  rw [Action.exec_bind]
  cases run : m.exec w with
  | mk result w' =>
    rw [run] at moved
    cases result with
    | error e => exact moved
    | ok a => exact Admits.trans moved (rest a w')

omit [Admits R] in
theorem outcome (keeps : Keeping R m) : Keeping R m.outcome := keeps

theorem ignore (keeps : Keeping R m) : Keeping R (Action.ignore m) :=
  bind keeps.outcome fun _ => pure ()

omit [Admits R] in
theorem ite {c : Prop} [Decidable c] {a b : Act α} (yes : Keeping R a)
    (no : Keeping R b) : Keeping R (if c then a else b) := by
  split
  · exact yes
  · exact no

theorem step {f : World → α × World} (deeds : ∀ w, Deed w (f w).2) :
    Keeping R (Action.step f : Act α) := Keeping.deeds deeds

theorem forM {xs : List β} {f : β → Act PUnit} (each : ∀ x, Keeping R (f x)) :
    Keeping R (xs.forM f) := by
  induction xs with
  | nil => exact pure _
  | cons x xs ih => exact bind (each x) fun _ => ih

theorem mapM {xs : List β} {f : β → Act α} (each : ∀ x, Keeping R (f x)) :
    Keeping R (xs.mapM f) := by
  induction xs with
  | nil => exact pure _
  | cons x xs ih =>
    rw [List.mapM_cons]
    exact bind (each x) fun _ => bind ih fun _ => pure _

theorem atomically (keeps : Keeping R m) : Keeping R (atomically m) := by
  intro w
  have moved := keeps w
  simp only [Crewd.atomically, Action.exec_mk]
  cases run : m.exec w with
  | mk result w' =>
    rw [run] at moved
    cases result with
    | error e => exact Admits.undone moved
    | ok a => exact moved

theorem transaction (keeps : Keeping R m) : Keeping R (transaction m) :=
  bind (silent .mayFail) fun _ => atomically <|
    bind keeps fun _ => bind (silent .mayFail) fun _ => pure _

theorem insertInto {taken : Store → Bool} {constraint : String} {f : Store → Store}
    (moves : ∀ w : World, R w { w with store := f w.store }) :
    Keeping R (insertInto taken constraint f) :=
  bind (silent .mayFail) fun _ => bind (silent (.readStore _)) fun _ => ite (throw _) moves

theorem append (draft : AuditEventDraft) : Keeping R (append draft) := by
  unfold Crewd.append
  split
  · exact pure _
  · refine bind (silent .nextFault) fun fault => ?_
    cases fault with
    | some text => exact pure _
    | none => exact step fun w => .event draft

theorem updateScheduler {f : Scheduler → Scheduler} (lands : Lands f) :
    Keeping R (updateScheduler f) :=
  step fun _ => .schedule f [] lands (List.forall_mem_nil _)

theorem auditAppend {kind outcome : String} {messageId fromCell toCell : Option String}
    {detail : Option Json} :
    Keeping R (auditAppend kind messageId fromCell toCell outcome detail) := by
  refine bind (append _) fun logged => ?_
  cases logged with
  | ok u => exact pure _
  | error e => exact throw _

theorem audit {kind outcome : String} {messageId fromCell toCell : Option String}
    {detail : Option Json} : Keeping R (audit kind messageId fromCell toCell outcome detail) := by
  refine bind (append _) fun logged => ?_
  cases logged with
  | ok u => exact pure _
  | error e => exact throw _

end Keeping

section Rows
variable [Admits R] {id : String}

theorem jobSetState_keeping (state : JobState) : Keeping R (jobSetState id state) := by
  refine .bind (.silent .mayFail) fun _ => .bind (.silent (.readStore _)) fun found => ?_
  cases found with
  | none => exact .throw _
  | some row =>
    exact .step fun w => .job row.jobId (.setState state) [.wrote row state] (fun _ => rfl)
      (List.forall_mem_singleton.mpr rfl)

theorem jobMarkAccepted_keeping (engineTurnId : String) :
    Keeping R (jobMarkAccepted id engineTurnId) := by
  refine .bind (.silent .nowRfc3339) fun now => .bind (.silent .mayFail) fun _ => ?_
  refine .bind (.silent (.readStore _)) fun known => .ite (.step fun w => ?_) (.throw _)
  exact .job id (fun j => { j with
    acceptedByEngineAt := some now, engineTurnId := some engineTurnId }) [] (fun _ => rfl)
    (List.forall_mem_nil _)

theorem requeueRow_keeping : Keeping R (requeueRow id) :=
  .step fun _ => .job id CellJob.requeue [.requeued id] (fun _ => rfl)
    (List.forall_mem_singleton.mpr rfl)

theorem jobRequeue_keeping : Keeping R (jobRequeue id) := by
  refine .bind (.silent .mayFail) fun _ => .bind (.silent (.readStore _)) fun known => ?_
  exact .ite (.bind requeueRow_keeping fun _ => .pure _) (.pure _)

theorem jobRequeueExpiredLeases_keeping (now : String) :
    Keeping R (jobRequeueExpiredLeases now) := by
  refine .transaction (.bind (.query _) fun ids => .bind (.forM fun _ => ?_) fun _ => .pure _)
  exact .bind (.silent .mayFail) fun _ => requeueRow_keeping

theorem jobLeaseNext_keeping (cell : String) (leaseSecs : Nat) :
    Keeping R (jobLeaseNext cell leaseSecs) := by
  refine .bind (.silent .mayFail) fun _ => .bind (.atomically ?_) fun leased => ?_
  · refine .bind (.query _) fun occupied => .ite (.pure _) (.bind (.query _) fun head => ?_)
    cases head with
    | none => exact .pure _
    | some row =>
      refine .bind (.silent (.rfc3339After _)) fun expires => .bind (.silent .mayFail) fun _ => ?_
      refine .bind (.step fun w => ?_) fun _ => .bind (.silent .mayFail) fun _ => .pure _
      exact .job row.jobId (.leasedUntil expires) [.wrote row .leased] (fun _ => rfl)
        (List.forall_mem_singleton.mpr rfl)
  · cases leased with
    | none => exact .pure _
    | some jobId =>
      refine .bind (.query _) fun found => ?_
      cases found with
      | none => exact .throw _
      | some job => exact .pure _

theorem threadUpdate_keeping {f : CellThread → CellThread} {marks : Store → List Mark}
    (keeps : ∀ t, (f t).fixed = t.fixed)
    (mild : ∀ st, ∀ mark ∈ marks st, mark.ofTurn = false) :
    Keeping R (threadUpdate id f marks) := by
  refine .bind (.silent .mayFail) fun _ => .bind (.silent (.readStore _)) fun known => ?_
  exact .ite (.step fun w => .thread id f (marks w.store) keeps (mild w.store)) (.throw _)

theorem threadTransition_keeping (target : ThreadState) :
    Keeping R (threadTransition id target) := by
  refine .bind (.query _) fun found => ?_
  cases found with
  | none => exact .throw _
  | some t =>
    refine .ite (.bind (.silent .nowRfc3339) fun now => ?_) (.throw _)
    exact threadUpdate_keeping (fun _ => rfl) fun _ => List.forall_mem_singleton.mpr rfl

theorem threadSetEngineIds_keeping (processId : Option Int)
    (threadId turnId sessionId : Option String) :
    Keeping R (threadSetEngineIds id processId threadId turnId sessionId) :=
  .bind (.silent .nowRfc3339) fun _ =>
    threadUpdate_keeping (fun _ => rfl) fun _ => List.forall_mem_nil _

theorem journalAppend_keeping (line : String) (event : EngineEvent) :
    Keeping R (journalAppend id line event) := by
  refine .transaction (.bind (.query _) fun next => .bind (.silent .nowRfc3339) fun now => ?_)
  refine .bind (.silent .mayFail) fun _ => .bind (.silent (.readStore _)) fun taken => ?_
  exact .ite (.throw _) (.bind (.deeds fun _ => .line _ event) fun _ => .pure _)

end Rows

/-- Every section of the handler moves the state by the relation. -/
def Throughout (R : World → World → Prop) (h : Handler α) : Prop := ∀ visits,
  Goes (fun _ _ => R) (fun _ _ => True) visits h fun _ _ => True

namespace Throughout
variable {h : Handler α} {f : α → Handler β}

theorem bind (first : Throughout R h) (rest : ∀ a, Throughout R (f a)) :
    Throughout R (h >>= f) :=
  fun visits => Goes.bind (first visits) fun visits' a _ => rest a visits'

theorem pure {a : α} : Throughout R (Pure.pure a : Handler α) := fun _ => Goes.pure trivial

theorem raise {r : Except BusError α} : Throughout R (Crewd.raise r : Handler α) :=
  fun _ => Goes.raise (fun _ _ => trivial) fun _ _ => trivial

theorem locked [Admits R] {m : Act α} (keeping : Keeping R m) : Throughout R (Crewd.locked m) := by
  intro visits
  apply Goes.locked
  · intro i w
    have installed : R w (w.install i) := Admits.deed (.quiet (w.quiet_install i))
    exact Admits.trans installed (keeping _)
  · exact fun _ _ _ _ => trivial
  · exact fun _ _ _ _ => trivial

theorem ite {c : Prop} [Decidable c] {a b : Handler α} (yes : Throughout R a)
    (no : Throughout R b) : Throughout R (if c then a else b) := by
  split
  · exact yes
  · exact no

theorem forM {xs : List β} {f : β → Handler PUnit} (each : ∀ x, Throughout R (f x)) :
    Throughout R (xs.forM f) := by
  induction xs with
  | nil => exact pure
  | cons x xs ih => exact bind (each x) fun _ => ih

end Throughout

section Scheduler
variable [Admits R] {threadId cell jobId : String}

theorem persistEngineIds_keeping : Keeping R (persistEngineIds threadId cell) :=
  .bind (.silent (.readMemory _)) fun _ => .ite (threadSetEngineIds_keeping _ _ _ _) (.pure _)

theorem settleFailed_keeping (accepted : Bool) (reason : String) :
    Keeping R (settleFailed jobId accepted reason) := by
  refine .ite (.pure _) (.ite (jobSetState_keeping _) (.ite (jobSetState_keeping _) ?_))
  exact .ignore jobRequeue_keeping

theorem failTurn_throughout (accepted : Bool) (error reason : String) :
    Throughout R (failTurn threadId cell jobId accepted error reason) := by
  apply Throughout.bind
  · exact .locked (.bind (settleFailed_keeping _ _) fun _ => threadTransition_keeping _)
  · exact fun _ => .locked .auditAppend

theorem acceptTurn_keeping (engineTurnId : String) :
    Keeping R (acceptTurn threadId engineTurnId) := by
  refine .bind (.silent (.readMemory _)) fun turn => .bind ?_ fun _ =>
    .updateScheduler (.updateTurn fun _ => rfl)
  cases turn.map (·.jobId) with
  | none => exact .pure _
  | some jobId =>
    refine .bind (jobMarkAccepted_keeping _) fun _ => ?_
    refine .bind (threadSetEngineIds_keeping _ _ _ _) fun _ => ?_
    exact .bind (journalAppend_keeping _ _) fun _ => .pure _

theorem completeTurn_keeping (finished : Option String) (finalAnswer : String) :
    Keeping R (completeTurn threadId finished finalAnswer) := by
  refine .bind (journalAppend_keeping _ _) fun _ => .bind ?_ fun _ => threadTransition_keeping _
  cases finished with
  | none => exact .pure _
  | some jobId => exact jobSetState_keeping _

omit [Admits R] in
theorem drainEvents_throughout [Drains R] (turn : Nat) (events : List (Nat × EngineEvent)) :
    Throughout R (drainEvents threadId cell turn events) := by
  induction events with
  | nil => exact .pure
  | cons event rest ih =>
    unfold drainEvents
    split
    · exact .bind (.locked (.bind (Drains.apply _ _) fun _ => acceptTurn_keeping _)) fun _ => ih
    · refine .bind (.locked (.bind (Drains.apply _ _) fun _ => ?_)) fun _ => ih
      exact .bind (journalAppend_keeping _ _) fun _ => .pure _
    · apply Throughout.bind
      · exact .locked (.bind (Drains.apply _ _) fun _ => .bind (.silent (.readMemory _)) fun _ =>
          .bind persistEngineIds_keeping fun _ => .pure _)
      · intro finished
        apply Throughout.bind (.locked (completeTurn_keeping _ _))
        exact fun _ => .locked (.bind .auditAppend fun _ => .updateScheduler (.land _))
    · apply Throughout.bind
      · exact .locked (.bind (Drains.apply _ _) fun _ => .silent (.readMemory _))
      · exact fun found => .bind (failTurn_throughout _ _ _) fun _ =>
          .locked (.updateScheduler (.land _))

omit [Admits R] in
theorem drainTurn_throughout [Drains R] : Throughout R (drainTurn threadId) := by
  refine .bind (.locked (.bind (.silent (.readMemory _)) fun found => ?_)) fun polled => ?_
  · cases found with
    | none => exact .pure _
    | some turn => exact .bind (Drains.poll _) fun _ => .pure _
  · cases polled with
    | none => exact .pure
    | some polled => exact drainEvents_throughout _ _

theorem takeTurn_keeping : Keeping R (takeTurn threadId) := by
  refine .step fun w => ?_
  split
  · exact .quiet .rfl
  · exact .schedule _ [.timedOut _ _ _ _] (.land _) (List.forall_mem_singleton.mpr rfl)

theorem handleTimeout_throughout : Throughout R (handleTimeout threadId) := by
  refine .bind (.locked takeTurn_keeping) fun taken => ?_
  cases taken with
  | none => exact .pure
  | some turn =>
    refine .bind (.locked (.bind ?_ fun _ => .bind (threadTransition_keeping _) fun _ => ?_)) fun _ =>
      .locked .auditAppend
    · cases turn.engineTurnId with
      | none => exact .pure _
      | some id => exact threadSetEngineIds_keeping _ _ _ _
    · exact .ite (jobSetState_keeping _) (.ignore jobRequeue_keeping)

theorem stopEngine_keeping {f : Scheduler → Scheduler} (lands : Lands f) :
    Keeping R (stopEngine cell f) :=
  .step fun _ => .schedule (fun s => (f s).stop cell) [.stopped cell] lands
    (List.forall_mem_singleton.mpr rfl)

theorem auditStopped_keeping (there : Bool) : Keeping R (auditStopped cell there) :=
  .ite (.bind (.append _) fun _ => .pure _) (.pure _)

theorem respawnBackoffSecs_keeping : Keeping R (respawnBackoffSecs cell) := by
  refine .step fun w => ?_
  let waits : Scheduler → Scheduler := fun s => { s with
    backoffStep :=
      put cell ((w.memory.scheduler.backoffStep.lookup cell).getD 0 + 1) s.backoffStep }
  have lands : Lands waits := .same fun _ => rfl
  exact .schedule waits [] lands (List.forall_mem_nil _)

theorem checkDeathAndTimeout_throughout (nowNanos : Nat) :
    Throughout R (checkDeathAndTimeout nowNanos threadId) := by
  refine .bind (.locked (.silent (.readMemory _))) fun found => ?_
  cases found with
  | none => exact .pure
  | some found =>
    apply Throughout.ite
    swap
    · exact .ite handleTimeout_throughout .pure
    apply Throughout.bind (failTurn_throughout _ _ _)
    intro _
    apply Throughout.locked
    refine .bind (.silent (.readMemory _)) fun _ => ?_
    refine .bind (stopEngine_keeping (.land threadId)) fun _ => ?_
    exact .bind (auditStopped_keeping _) fun _ => .bind respawnBackoffSecs_keeping fun _ => .pure _

theorem makeAdapter_keeping (kind : EngineKind) (threadId : Option String) :
    Keeping R (makeAdapter cell kind threadId) :=
  .step fun _ => .schedule _ [.made cell _] (.same fun _ => rfl) (List.forall_mem_singleton.mpr rfl)

theorem ensure_keeping (kind : EngineKind) : Keeping R (ensure cell kind) := by
  refine .bind (.silent (.readMemory _)) fun engine => .ite (.pure _) ?_
  refine .bind (.silent (.readOutside _)) fun made => ?_
  cases made with
  | ok threadId => exact makeAdapter_keeping _ _
  | error e => exact .ite (makeAdapter_keeping _ _) (.throw _)

theorem maybeResume_keeping (d : CellDef) (thread : CellThread) :
    Keeping R (maybeResume d thread) := by
  have attached : ∀ f, Keeping R (attach d.name thread f) := fun _ => .step fun _ =>
    .schedule _ [.attached _ _ _ _] (.same fun _ => rfl) (List.forall_mem_singleton.mpr rfl)
  exact .bind (.silent (.readOutside _)) fun resumes =>
    .ite (.ite (attached _) (attached _)) (attached _)

theorem tryStartTurn_throughout (d : CellDef) (nowNanos : Nat) (starts : ∀ threadId jobId,
      Keeping R (startTurn d.name threadId jobId nowNanos)) :
    Throughout R (tryStartTurn d nowNanos) := by
  apply Throughout.bind (.locked (.bind (.silent (.readMemory _)) fun _ => jobLeaseNext_keeping _ _))
  intro leased
  cases leased with
  | none => exact .pure
  | some job =>
    refine .bind (.locked (.query _)) fun thread => ?_
    cases thread with
    | none => exact .pure
    | some thread =>
      apply Throughout.ite
      swap
      · exact .pure
      apply Throughout.bind
      · exact .locked (.bind (jobSetState_keeping _) fun _ => threadTransition_keeping _)
      intro _
      apply Throughout.bind (.locked .auditAppend)
      intro _
      refine .bind (.locked (ensure_keeping _).outcome) fun came => ?_
      cases came with
      | error e => exact failTurn_throughout _ _ _
      | ok u =>
        refine .bind (.locked (maybeResume_keeping _ _)) fun _ => ?_
        refine .bind (.locked (starts _ _).outcome) fun started => ?_
        cases started with
        | error e => exact failTurn_throughout _ _ _
        | ok u => exact .pure

theorem cancelCell_keeping : Keeping R (cancelCell cell) := by
  have dropped : Lands (·.dropCell cell) :=
    fun _ entry inside => ⟨entry, (List.mem_filter.mp inside).1, rfl⟩
  refine .bind (.silent (.readMemory _)) fun _ => ?_
  refine .bind (stopEngine_keeping (.same fun _ => rfl)) fun _ => ?_
  exact .bind (auditStopped_keeping _) fun _ => .updateScheduler dropped

theorem drainCancels_throughout : Throughout R drainCancels :=
  .bind (.locked (.step fun _ => .cancels [])) fun _ => .forM fun _ => .locked cancelCell_keeping

theorem inFlightKeys_throughout : Throughout R (Crewd.locked inFlightKeys) :=
  .locked (.bind (.silent (.readOutside _)) fun _ => .silent (.readMemory _))

theorem startable_throughout : Throughout R (Crewd.locked startable) :=
  .locked (.bind (.query _) fun _ => .bind (.query _) fun _ => .pure _)

omit [Admits R] in
theorem tick_throughout [Drains R] (starts : ∀ cell threadId jobId nowNanos,
    Keeping R (startTurn cell threadId jobId nowNanos)) : Throughout R tick := by
  refine .bind (.locked (.bind (.silent .nowRfc3339) fun _ => .bind (.silent .nowMs) fun _ =>
    .pure _)) fun (now, nowNanos) => ?_
  refine .bind drainCancels_throughout fun _ => .bind (.locked (jobRequeueExpiredLeases_keeping _))
    fun _ => .bind inFlightKeys_throughout fun existing => ?_
  apply Throughout.bind (.forM fun _ => drainTurn_throughout)
  intro _
  apply Throughout.bind inFlightKeys_throughout
  intro still
  apply Throughout.bind (.forM fun _ => checkDeathAndTimeout_throughout _)
  intro _
  apply Throughout.bind
  · refine .bind startable_throughout fun cells => .forM fun d => ?_
    exact .bind (.locked (.silent (.readMemory _))) fun busy =>
      .ite .pure (tryStartTurn_throughout _ _ fun _ _ => starts _ _ _ _)
  · exact fun _ => .bind inFlightKeys_throughout fun fresh => .forM fun _ =>
      .ite .pure drainTurn_throughout

theorem bootRecovery_keeping : Keeping R bootRecovery := by
  have recovers : ∀ (outcome previous : String) (target : ThreadState) (t : CellThread),
      Keeping R (recoverThread outcome previous target t) := by
    intro outcome previous target t
    refine .bind (.append _) fun logged => ?_
    cases logged with
    | error e => exact .throw _
    | ok u => exact .bind (threadTransition_keeping _) fun _ => .pure _
  refine .bind (.query _) fun _ => .bind (.mapM fun _ => recovers _ _ _ _) fun _ => ?_
  exact .bind (.query _) fun _ => .bind (.mapM fun _ => recovers _ _ _ _) fun _ => .pure _

end Scheduler

end Crewd.Fabric
