import Crewd.Fabric.Invariant

/-! What the store operations of the fabric do, from any snapshot: they are made of
elementary steps, and their success says which rows have changed. -/
namespace Crewd.Fabric
open Autocommit Concurrent Table

variable {id : String} {α β : Type} {self : Actor}

abbrev Snap := Snapshot Store Memory Mark

theorem Calm.ofQuiet (w w' : World) (same : w.Quiet w') : Calm w w' := .quiet same

/-- What a spawn does: it appends events, and adds a thread with its first job. -/
inductive Plants : World → World → Prop where
  | quiet : w.Quiet w' → Plants w w'
  | event (draft) : Plants w { w with audit := w.audit ++ [draft] }
  | spawned (locks row thread job) : Spawns w.store row thread job →
      Plants w { w with store := w.store.spawn locks row thread job }

theorem Plants.calm {w w' : World} (plants : Plants w w') : Calm w w' := by
  cases plants with
  | quiet same => exact .quiet same
  | event draft => exact .event draft
  | spawned locks row thread job spawns => exact .spawned locks row thread job spawns

theorem Plants.ofQuiet (w w' : World) (same : w.Quiet w') : Plants w w' := .quiet same

/-- Only tables, history and the end of the chain differ, besides input and identifiers. -/
structure Confined (w w' : World) : Prop where
  memory : w'.memory = w.memory
  audit : w.audit <+: w'.audit
  minted : w.minted ≤ w'.minted

namespace Confined

theorem ofQuiet (w w' : World) (same : w.Quiet w') : Confined w w' :=
  ⟨same.memory, same.audit ▸ List.prefix_refl _, same.minted⟩

theorem tables {st : Store} : Confined w { w with store := st } :=
  ⟨rfl, List.prefix_refl _, Nat.le_refl _⟩

theorem path (path : Relation.ReflTransGen Confined w w') : Confined w w' := by
  induction path with
  | refl => exact .ofQuiet _ _ .rfl
  | tail _ last ih =>
    exact ⟨last.memory.trans ih.memory, ih.audit.trans last.audit, Nat.le_trans ih.minted last.minted⟩

/-- The events of a rolled back computation stay in the chain. -/
theorem events (events : List AuditEventDraft) (w : World) :
    Relation.ReflTransGen Plants w { w with audit := w.audit ++ events } := by
  induction events generalizing w with
  | nil => exact .single (.quiet ⟨rfl, List.append_nil _, rfl, rfl, Nat.le_refl _⟩)
  | cons event rest ih =>
    refine .head (.event event) ?_
    simpa using ih { w with audit := w.audit ++ [event] }

theorem rollback (confined : Confined w w') :
    Relation.ReflTransGen Plants w { w' with store := w.store, history := w.history } := by
  obtain ⟨memory, ⟨drafts, audit⟩, minted⟩ := confined
  exact (events drafts w).tail (.quiet ⟨rfl, audit.symm, memory, rfl, minted⟩)

end Confined

section Rules
variable {now : Snap} {R : World → World → Prop} (calm : ∀ w w', Calm w w' → R w w')
include calm

/-- A body that only writes to the tables, run atomically. -/
theorem atomic_meets {body : Act α} {Q : α → World → Prop}
    (inner : Meets (fun w w' => R w w' ∧ Confined w w') (·.At now) body Q) :
    Meets R (·.At now) (atomically body) Q := by
  refine meets_atomically inner (fun w w' a _ path holds => ⟨?_, holds⟩) fun w w' _ path => ?_
  · exact Relation.ReflTransGen.mono (fun _ _ h => h.1) _ _ path
  · have confined := Confined.path (Relation.ReflTransGen.mono (fun _ _ h => h.2) _ _ path)
    exact Relation.ReflTransGen.mono (fun _ _ h => calm _ _ h.calm) _ _ confined.rollback

omit calm in
variable (quiet : ∀ w w', World.Quiet w w' → R w w') in
include quiet in
theorem threadUpdate_meets {f : CellThread → CellThread} {marks : Store → List Mark}
    (moves : ∀ w : World, w.At now → R w { w with
      store := w.store.updateThread id f, history := marks w.store ++ w.history }) :
    Meets R (·.At now) (threadUpdate id f marks) (fun _ w => w.At { now with
      store := now.store.updateThread id f, history := marks now.store ++ now.history }) := by
  refine (meets_mayFail quiet).bind fun _ => Meets.bind (Q := fun _ w => w.At now) ?_ fun b => ?_
  · exact Meets.look (fun _ => rfl) fun _ here => here
  · refine Meets.ite (fun _ => Meets.step moves fun w here => ?_) fun _ => Meets.throw
    exact ⟨by rw [← here.store], here.audit, here.memory, by rw [← here.store, ← here.history],
      here.minted⟩

omit calm in
variable (quiet : ∀ w w', World.Quiet w w' → R w w') in
include quiet in
theorem jobUpdate_meets {f : CellJob → CellJob}
    (moves : ∀ w : World, w.At now → R w { w with store := w.store.updateJob id f }) :
    Meets R (·.At now) (jobUpdate id f)
      (fun _ w => w.At { now with store := now.store.updateJob id f }) := by
  refine (meets_mayFail quiet).bind fun _ => Meets.bind (Q := fun _ w => w.At now) ?_ fun b => ?_
  · exact Meets.look (fun _ => rfl) fun _ here => here
  · refine Meets.ite (fun _ => Meets.step moves fun w here => ?_) fun _ => Meets.throw
    exact ⟨by rw [← here.store], here.audit, here.memory, here.history, here.minted⟩

omit calm in
variable (quiet : ∀ w w', World.Quiet w w' → R w w') in
include quiet in
/-- The state of a row that there is. -/
theorem jobSetState_meets {state : JobState}
    (moves : ∀ (w : World) row, w.At now → now.store.job id = some row →
      R w (writeRow w row (.setState state) state)) :
    Meets R (·.At now) (jobSetState id state) (fun _ w => ∃ row, now.store.job id = some row ∧
      w.At { now with
        store := now.store.updateJob row.jobId (.setState state)
        history := .wrote row state :: now.history }) := by
  refine (meets_mayFail quiet).bind fun _ => Meets.bind
    (Q := fun row w => w.At now ∧ row = now.store.job id) ?_ fun row => ?_
  · exact Meets.look (fun _ => rfl) fun _ here => ⟨here, by rw [here.store]⟩
  · cases row with
    | none => exact Meets.throw
    | some row =>
      refine Meets.step (fun w h => moves w row h.1 h.2.symm) fun w h => ⟨row, h.2.symm, ?_⟩
      obtain ⟨here, _⟩ := h
      exact ⟨by rw [← here.store], here.audit, here.memory, by rw [← here.history], here.minted⟩

omit calm in
variable (quiet : ∀ w w', World.Quiet w w' → R w w') in
include quiet in
theorem threadTransition_meets {target : ThreadState}
    (moves : ∀ (w : World) time t, w.At now → now.store.thread id = some t →
      transitionAllowed t.state target = true → R w (moveThread w id time t.state target)) :
    Meets R (·.At now) (threadTransition id target) (fun _ w => ∃ time t,
      now.store.thread id = some t ∧ transitionAllowed t.state target = true ∧ w.At { now with
        store := now.store.updateThread id (CellThread.movedTo target time)
        history := .moved id t.state target (now.store.alone id) :: now.history }) := by
  refine (meets_query quiet _).bind fun row => meets_from fun _ ⟨here, found⟩ => ⟨_, here, ?_⟩
  cases row with
  | none => exact Meets.throw
  | some t =>
    refine Meets.ite (fun allowed => ?_) fun _ => Meets.throw
    refine (Silent.nowRfc3339.meets quiet).bind fun time => ?_
    refine (threadUpdate_meets quiet fun w here => ?_).weaken (fun _ h => h) fun _ _ here => ?_
    · exact moves w time t here found.symm allowed
    · exact ⟨time, t, found.symm, allowed, here⟩

end Rules

/-- Made of calm steps from any state. -/
def Calmly (m : Act α) : Prop := Meets Calm (fun _ => True) m (fun _ _ => True)

namespace Calmly

theorem of_silent {m : Act α} (silent : Silent m) : Calmly m := silent.always Calm.ofQuiet

theorem of_snapshot {m : Act α} {Q : Snap → α → World → Prop}
    (met : ∀ now : Snap, Meets Calm (·.At now) m (Q now)) : Calmly m :=
  meets_from fun w _ => ⟨_, w.at_snapshot, (met _).weaken (fun _ h => h) fun _ _ _ => trivial⟩

theorem bind {m : Act α} {f : α → Act β} (first : Calmly m) (rest : ∀ a, Calmly (f a)) :
    Calmly (m >>= f) := Meets.bind first rest

theorem ite {c : Prop} [Decidable c] {m m' : Act α} (yes : c → Calmly m) (no : ¬ c → Calmly m') :
    Calmly (if c then m else m') := Meets.ite yes no

theorem pure (a : α) : Calmly (Pure.pure a : Act α) := of_silent (.pure a)

theorem throw (e : BusError) : Calmly (MonadExcept.throw e : Act α) := of_silent (.throw e)

theorem mapM {xs : List β} {f : β → Act α} (each : ∀ x, Calmly (f x)) : Calmly (xs.mapM f) := by
  induction xs with
  | nil => exact pure []
  | cons x xs ih =>
    rw [List.mapM_cons]
    exact bind (each x) fun _ => bind ih fun _ => pure _

theorem outcome {m : Act α} (calmly : Calmly m) : Calmly m.outcome :=
  Meets.weaken (fun _ h => h) (fun _ _ _ => trivial)
    (Meets.outcome calmly fun _ _ _ _ => (trivial : True))

theorem append (draft : AuditEventDraft) : Calmly (append draft) :=
  of_snapshot fun _ => meets_append Calm.ofQuiet fun _ _ => .event draft

theorem audit {kind outcome : String} {messageId fromCell toCell : Option String}
    {detail : Option Json} : Calmly (audit kind messageId fromCell toCell outcome detail) := by
  refine bind (append _) fun r => ?_
  cases r with
  | ok u => exact pure ()
  | error e => exact throw _

theorem auditAppend {kind outcome : String} {messageId fromCell toCell : Option String}
    {detail : Option Json} : Calmly (auditAppend kind messageId fromCell toCell outcome detail) := by
  refine bind (append _) fun r => ?_
  cases r with
  | ok u => exact pure ()
  | error e => exact throw _

theorem jobMarkAccepted (engineTurnId : String) : Calmly (jobMarkAccepted id engineTurnId) :=
  bind (of_silent .nowRfc3339) fun now => of_snapshot fun _ =>
    jobUpdate_meets Calm.ofQuiet fun _ _ => .accepted id now engineTurnId

theorem threadSetEngineIds {processId : Option Int} {turnId sessionId : Option String} :
    Calmly (threadSetEngineIds id processId none turnId sessionId) :=
  bind (of_silent .nowRfc3339) fun _ => of_snapshot fun _ => threadUpdate_meets Calm.ofQuiet
    fun _ _ => .columns id _ (fun _ => ⟨rfl, rfl, rfl⟩) fun _ => rfl

theorem threadTransition {target : ThreadState} (idle : target ≠ .running) :
    Calmly (threadTransition id target) := by
  refine of_snapshot fun now => threadTransition_meets Calm.ofQuiet fun w time t here found allowed => ?_
  exact .moved id time t target (by rw [here.store]; exact found) allowed idle

/-- A line of the journal for its event. -/
theorem journalAppend (threadId : String) (event : EngineEvent) :
    Calmly (journalAppend threadId event.line event) := by
  have quiet : ∀ w w' : World, w.Quiet w' → Calm w w' ∧ Confined w w' :=
    fun w w' same => ⟨.quiet same, .ofQuiet w w' same⟩
  refine of_snapshot (Q := fun _ _ _ => True) fun now => ?_
  refine (meets_mayFail Calm.ofQuiet).bind fun _ => atomic_meets (fun _ _ h => h) ?_
  refine Meets.bind (Q := fun _ _ => True) ?_ fun _ => ?_
  · refine (meets_query quiet _).bind fun next => meets_from fun _ ⟨here, found⟩ => ⟨_, here, ?_⟩
    refine (Silent.nowRfc3339.meets quiet).bind fun time => (meets_mayFail quiet).bind fun _ => ?_
    refine Meets.bind (Q := fun _ w => w.At now) (Meets.look (fun _ => rfl) fun _ here => here)
      fun taken => Meets.ite (fun _ => Meets.throw) fun _ => ?_
    refine Meets.bind (Q := fun _ _ => True) ?_ fun _ => Meets.pure fun _ _ => trivial
    refine Meets.step (fun w here => ?_) fun _ _ => trivial
    exact ⟨.journal ⟨threadId, next, event.line, time⟩ event rfl (by rw [here.store]; exact found),
      rfl, List.prefix_refl _, Nat.le_refl _⟩
  · exact (Silent.mayFail.always quiet).bind fun _ => Meets.pure fun _ _ => trivial

end Calmly

section Jobs
variable {now : Snap}

theorem le_foldl_max {first : Nat} {numbers : List Nat} : first ≤ numbers.foldl max first ∧
    ∀ n ∈ numbers, n ≤ numbers.foldl max first := by
  induction numbers generalizing first with
  | nil => exact ⟨Nat.le_refl _, fun _ member => by cases member⟩
  | cons n rest ih =>
    obtain ⟨start, each⟩ := @ih (max first n)
    constructor
    · exact Nat.le_trans (Nat.le_max_left _ _) start
    · intro m member
      rcases List.mem_cons.mp member with rfl | later
      · exact Nat.le_trans (Nat.le_max_right _ _) start
      · exact each m later

theorem lt_nextEnqueueSeq {st : Store} {cell : String} (member : j ∈ st.jobs)
    (inCell : j.cellName = cell) : j.enqueueSeq < st.nextEnqueueSeq cell := by
  apply Nat.lt_succ_of_le
  apply le_foldl_max.2
  exact List.mem_map_of_mem (List.mem_filter.mpr ⟨member, decide_eq_true inCell⟩)

/-- The job row that `jobEnqueueInner` adds. -/
structure Enqueued (st : Store) (threadId cell payload : String) (job : CellJob) : Prop where
  enqueues : Enqueues st job
  thread : job.crewdThreadId = threadId
  cell : job.cellName = cell
  payload : job.payload = payload
  unaccepted : job.acceptedByEngineAt = none

theorem jobEnqueueInner_meets [Platform] {R : World → World → Prop}
    (quiet : ∀ w w', World.Quiet w w' → R w w') {threadId cell payload : String}
    (moves : ∀ w job, w.At now ∨ (∃ n, w.At { now with minted := n }) →
      Enqueued now.store threadId cell payload job →
      R w { w with store := { w.store with jobs := w.store.jobs ++ [job] } }) :
    Meets R (·.At now) (jobEnqueueInner threadId cell payload queueDepthDefault) (fun job w =>
      Enqueued now.store threadId cell payload job ∧ ∃ n, now.minted ≤ n ∧ w.At { now with
        store := { now.store with jobs := now.store.jobs ++ [job] }, minted := n }) := by
  refine (meets_query quiet _).bind fun count => meets_from fun _ ⟨here, counted⟩ => ⟨_, here, ?_⟩
  refine Meets.ite (fun _ => Meets.throw) fun below => ?_
  refine (meets_query quiet _).bind fun seq => meets_from fun _ ⟨here, next⟩ => ⟨_, here, ?_⟩
  refine (meets_newUuidv7 quiet).bind fun jobId => meets_from fun _ ⟨n, le, _, here⟩ => ⟨_, here, ?_⟩
  refine (Silent.nowRfc3339.meets quiet).bind fun createdAt => ?_
  have described : (now.store.jobs.any fun j => decide (j.jobId = jobId)) = false →
      Enqueued now.store threadId cell payload ⟨jobId, threadId, cell, payload, .queued, none, none,
        none, createdAt, seq⟩ := by
    intro free
    refine ⟨⟨rfl, fun j member same => ?_, fun j member inCell => ?_, ?_⟩, rfl, rfl, rfl, rfl⟩
    · simp at free
      exact free j member same
    · rw [next]
      exact lt_nextEnqueueSeq member inCell
    · rw [← counted]
      exact Nat.lt_of_not_le below
  refine Meets.bind (meets_insertInto quiet fun w here free => ?_) fun _ => ?_
  · exact moves w _ (.inr ⟨_, here⟩) (described free)
  · exact Meets.pure fun w ⟨free, here⟩ => ⟨described free, n + 1, Nat.le_succ_of_le le, here⟩

theorem jobEnqueue_meets [Platform] {threadId cell payload : String}
    (linked : HasThread now.store threadId cell) :
    Meets Calm (·.At now) (jobEnqueue threadId cell payload queueDepthDefault) (fun job w =>
      Enqueued now.store threadId cell payload job ∧ w.store.jobs = now.store.jobs ++ [job]) := by
  have quiet : ∀ w w' : World, w.Quiet w' → Calm w w' ∧ Confined w w' :=
    fun w w' same => ⟨.quiet same, .ofQuiet w w' same⟩
  refine (meets_mayFail Calm.ofQuiet).bind fun _ => atomic_meets (fun _ _ h => h) ?_
  refine Meets.bind (jobEnqueueInner_meets quiet fun w job here added => ?_) fun job =>
    meets_from fun _ ⟨added, n, _, here⟩ => ⟨_, here, (meets_mayFail quiet).bind fun _ =>
      Meets.pure fun _ here => ⟨added, congrArg Store.jobs here.store⟩⟩
  have store : w.store = now.store := by
    rcases here with here | ⟨n, here⟩ <;> exact here.store
  refine ⟨.enqueued job (by rw [store]; exact added.enqueues) ?_, .tables⟩
  rw [store, added.thread, added.cell]
  exact linked

theorem mem_queued {st : Store} {cell : String} :
    j ∈ st.queued cell ↔ j ∈ st.jobs ∧ j.cellName = cell ∧ j.state = .queued := by
  simp [Store.queued]

/-- The head of the queue comes before everything else that is queued. -/
theorem head_queued {st : Store} {cell : String} (head : (st.queued cell).head? = some job) :
    ∀ j ∈ st.queued cell, job.enqueueSeq ≤ j.enqueueSeq := by
  have total : Std.Total fun a b : CellJob => a.enqueueSeq ≤ b.enqueueSeq :=
    ⟨fun a b => Nat.le_total a.enqueueSeq b.enqueueSeq⟩
  have trans : IsTrans CellJob fun a b => a.enqueueSeq ≤ b.enqueueSeq :=
    ⟨fun _ _ _ first second => Nat.le_trans first second⟩
  have sorted : (st.queued cell).Pairwise fun a b => a.enqueueSeq ≤ b.enqueueSeq :=
    List.pairwise_insertionSort _ _
  obtain ⟨rest, queue⟩ := List.head?_eq_some_iff.mp head
  rw [queue] at sorted ⊢
  intro j member
  rcases List.mem_cons.mp member with rfl | later
  · exact Nat.le_refl _
  · exact (List.pairwise_cons.mp sorted).1 j later

/-- The job that a lease takes. -/
structure Takes (st : Store) (cell : String) (row : CellJob) : Prop where
  leases : Leases st row
  stored : row ∈ st.jobs
  inCell : row.cellName = cell
  queued : row.state = .queued

def Snap.leased (now : Snap) (row : CellJob) (expires : String) : Snap := { now with
  store := now.store.updateJob row.jobId (.leasedUntil expires)
  history := .wrote row .leased :: now.history }

theorem jobLeaseNext_meets {cell : String} {leaseSecs : Nat} :
    Meets (Statement .main) (·.At now) (jobLeaseNext cell leaseSecs) (fun leased w =>
      (leased = none → w.At now) ∧
      ∀ job, leased = some job → ∃ row expires, Takes now.store cell row ∧
        (now.leased row expires).store.job row.jobId = some job ∧
        w.At (now.leased row expires)) := by
  have calm : ∀ w w', Calm w w' → Statement .main w w' := fun _ _ => .calm
  have quiet : ∀ w w' : World, w.Quiet w' → Statement .main w w' ∧ Confined w w' :=
    fun w w' same => ⟨.calm (.quiet same), .ofQuiet w w' same⟩
  refine (meets_mayFail fun w w' same => calm w w' (.quiet same)).bind fun _ => ?_
  refine Meets.bind (Q := fun leased w => (leased = none → w.At now) ∧ ∀ jobId, leased = some jobId →
    ∃ row expires, row.jobId = jobId ∧ Takes now.store cell row ∧ w.At (now.leased row expires))
    (atomic_meets calm ?_) fun leased => ?_
  · refine (meets_query quiet _).bind fun occupied => meets_from fun _ ⟨here, same⟩ => ⟨_, here, ?_⟩
    refine Meets.ite (fun _ => ?_) fun free => ?_
    · exact Meets.pure fun _ here => ⟨fun _ => here, fun _ h => by cases h⟩
    · refine (meets_query quiet _).bind fun head => meets_from fun _ ⟨here, found⟩ => ⟨_, here, ?_⟩
      cases head with
      | none => exact Meets.pure fun _ here => ⟨fun _ => here, fun _ h => by cases h⟩
      | some row =>
        refine ((Silent.rfc3339After _).meets quiet).bind fun expires => ?_
        have member := mem_queued.mp (List.mem_of_mem_head? found.symm)
        have takes : Takes now.store cell row := by
          refine ⟨⟨fun j stored inCell started => ?_, fun j stored inCell queued => ?_⟩, member.1,
            member.2.1, member.2.2⟩
          · apply free
            rw [same]
            exact List.any_eq_true.mpr ⟨j, stored, decide_eq_true ⟨inCell.trans member.2.1, started⟩⟩
          · exact head_queued found.symm j (mem_queued.mpr ⟨stored, inCell.trans member.2.1, queued⟩)
        refine (meets_mayFail quiet).bind fun _ => Meets.bind
          (Q := fun _ w => w.At (now.leased row expires)) (Meets.step (fun w here => ?_) fun w here => ?_)
          fun _ => (meets_mayFail quiet).bind fun _ => Meets.pure fun _ here => ?_
        · refine ⟨.leased row expires rfl ?_ member.2.2 ?_, rfl, List.prefix_refl _, Nat.le_refl _⟩ <;>
            rw [here.store]
          · exact member.1
          · exact takes.leases
        · exact ⟨congrArg (Store.updateJob · _ _) here.store, here.audit, here.memory,
            congrArg (List.cons _) here.history, here.minted⟩
        · refine ⟨fun h => (by cases h), fun _ h => ?_⟩
          cases h
          exact ⟨row, expires, rfl, takes, here⟩
  · cases leased with
    | none => exact Meets.pure fun _ h => ⟨fun _ => h.1 rfl, fun _ h => by cases h⟩
    | some jobId =>
      refine meets_from fun w h => ?_
      obtain ⟨row, expires, rfl, takes, here⟩ := h.2 _ rfl
      refine ⟨_, here, (meets_query (fun w w' same => calm w w' (.quiet same)) _).bind fun found => ?_⟩
      cases found with
      | none => exact Meets.throw
      | some job =>
        refine Meets.pure fun w' ⟨here, found⟩ => ⟨fun h => (by cases h), fun _ h => ?_⟩
        cases h
        exact ⟨row, expires, takes, found.symm, here⟩

/-- A row that was taken, as it is afterwards. -/
theorem Inv.leased {w w' : World} (inv : Inv w) {cell expires : String} {row : CellJob}
    (takes : Takes w.store cell row) (here : w'.At (Snap.leased w.snapshot row expires)) :
    Leased w'.store (row.leasedUntil expires) := by
  have back : ∀ j ∈ w'.store.jobs, j = row.leasedUntil expires ∨ j ∈ w.store.jobs := by
    intro j member
    rw [here.store] at member
    obtain ⟨old, stored, rfl⟩ := mem_updateJob.mp member
    split
    · rename_i same
      rw [inv.job_unique stored takes.stored same]
      exact .inl rfl
    · exact .inr stored
  constructor
  · rw [here.store]
    exact mem_updateJob.mpr ⟨row, takes.stored, by rw [if_pos rfl]⟩
  · exact .inl rfl
  · rfl
  · intro j member inCell
    rcases back j member with rfl | old
    · simp [CellJob.leasedUntil]
    · exact takes.leases.unoccupied j old inCell
  · intro j member inCell queued
    rcases back j member with rfl | old
    · exact Nat.le_refl _
    · exact takes.leases.head j old inCell queued

/-- A leased job can be started when nothing flies on its cell. -/
theorem Inv.startable {w w' : World} (inv : Inv w) {cell expires : String} {row : CellJob}
    (clear : Clear cell w)
    (takes : Takes w.store cell row)
    (found : (Snap.leased w.snapshot row expires).store.job row.jobId = some job)
    (here : w'.At (Snap.leased w.snapshot row expires)) :
    Startable job cell w' ∧ job = row.leasedUntil expires := by
  have leased := inv.leased takes here
  have same : job = row.leasedUntil expires := by
    obtain ⟨member, named⟩ := job_of_find found
    obtain ⟨old, known, rfl⟩ := mem_updateJob.mp member
    split at named
    · rename_i same
      rw [inv.job_unique known takes.stored same, if_pos rfl]
    · rename_i apart
      exact absurd named apart
  subst same
  refine ⟨⟨?_, ⟨_, leased.stored, rfl⟩, fun j member sameId => ?_, ?_, ?_⟩, rfl⟩
  · rw [here.store, ← takes.inCell]
    exact inv.jobLinked row takes.stored
  · rw [here.store] at member
    obtain ⟨other, stored, rfl⟩ := mem_updateJob.mp member
    split
    · exact ⟨by simp [CellJob.leasedUntil], rfl⟩
    · rename_i apart
      rw [if_neg apart] at sameId
      exact absurd sameId apart
  · rw [here.history]
    exact fun spent => (inv.spent _ spent).2 row takes.stored rfl takes.queued
  · rw [Clear, here.memory]
    exact clear

end Jobs
end Crewd.Fabric
