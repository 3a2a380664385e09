import Crewd.Fabric.Soundness

/-! A crash and the start after it. Boot recovery settles the threads, the sweep of
expired leases settles the jobs that no engine had accepted, and nothing settles the
jobs that one had. -/
namespace Crewd.Fabric
open Autocommit Concurrent Table

variable {α : Type} {st : Store} {id now : String}

/-- Any state may follow any other: only the answers are of interest. -/
abbrev Ends (P : World → Prop) (m : Act α) (Q : α → World → Prop) : Prop :=
  Meets (fun _ _ => True) P m Q

private theorem anyQuiet (w w' : World) : w.Quiet w' → True := fun _ => trivial

section Threads

/-- The threads in the states of `p` are among these. -/
def Left (p : ThreadState → Bool) (ids : List String) (st : Store) : Prop :=
  ∀ t ∈ st.threads, p t.state = true → t.crewdThreadId ∈ ids

variable {p : ThreadState → Bool} {target : ThreadState}

theorem Left.moved {ids : List String} (left : Left p (id :: ids) st) (leaves : p target = false) :
    Left p ids (st.updateThread id (CellThread.movedTo target time)) := by
  intro t member holds
  obtain ⟨old, stored, rfl⟩ := mem_updateThread.mp member
  split at holds
  · rw [CellThread.movedTo, leaves] at holds
    cases holds
  · rename_i apart
    rw [if_neg apart]
    rcases List.mem_cons.mp (left old stored holds) with same | inside
    · exact absurd same apart
    · exact inside

theorem recoverAll_ends {outcome previous : String} {rows : List CellThread}
    (leaves : p target = false) :
    Ends (fun w => w.store.jobs = st.jobs ∧ Left p (rows.map (·.crewdThreadId)) w.store)
      (rows.mapM (recoverThread outcome previous target))
      (fun _ w => w.store.jobs = st.jobs ∧ Left p [] w.store) := by
  induction rows with
  | nil => exact Meets.pure fun _ h => h
  | cons t rest ih =>
    rw [List.mapM_cons]
    refine Meets.bind (Q := fun _ w => w.store.jobs = st.jobs ∧
      Left p (rest.map (·.crewdThreadId)) w.store) ?_ fun _ => ih.bind fun _ => Meets.pure fun _ h => h
    refine meets_from fun w ⟨jobs, left⟩ => ⟨_, w.at_snapshot, ?_⟩
    refine (meets_append anyQuiet fun _ _ => trivial).bind fun logged => ?_
    cases logged with
    | error e => exact Meets.throw
    | ok u =>
      refine meets_from fun v h => ⟨_, h.1 rfl, ?_⟩
      refine (threadTransition_meets anyQuiet fun _ _ _ _ _ _ => trivial).bind fun _ =>
        Meets.pure fun v ⟨_, _, _, _, here⟩ => ?_
      rw [here.store]
      exact ⟨jobs, left.moved leaves⟩

theorem mem_threadsInState {state : ThreadState} :
    t ∈ st.threadsInState state ↔ t ∈ st.threads ∧ t.state = state := by
  simp [Store.threadsInState]

/-- Boot recovery leaves no thread active, and no job changed. -/
theorem bootRecovery_ends : Ends (fun w => w.store = st) bootRecovery
    (fun _ w => w.store.jobs = st.jobs ∧ Left ThreadState.active [] w.store) := by
  refine meets_from fun w same => ⟨_, w.at_snapshot, ?_⟩
  refine (meets_query anyQuiet _).bind fun running => Meets.bind (Q := fun _ w =>
    w.store.jobs = st.jobs ∧ Left (fun state => state = .running) [] w.store) ?_ fun interrupted => ?_
  · refine (recoverAll_ends rfl).weaken (fun v ⟨here, found⟩ => ?_) fun _ _ h => h
    rw [here.store, found]
    refine ⟨congrArg Store.jobs same, fun t member run => List.mem_map_of_mem ?_⟩
    exact mem_threadsInState.mpr ⟨member, of_decide_eq_true run⟩
  · refine meets_from fun w ⟨jobs, stopped⟩ => ⟨_, w.at_snapshot, ?_⟩
    refine (meets_query anyQuiet _).bind fun spawning => Meets.bind ?_ fun failed =>
      Meets.pure fun _ h => h
    refine (recoverAll_ends rfl).weaken (fun v ⟨here, found⟩ => ?_) fun _ _ h => h
    rw [here.store, found]
    refine ⟨jobs, fun t member active => List.mem_map_of_mem (mem_threadsInState.mpr ⟨member, ?_⟩)⟩
    cases state : t.state with
    | spawning => rfl
    | running => exact absurd (stopped t member (decide_eq_true state)) List.not_mem_nil
    | _ => simp [state, ThreadState.active] at active

end Threads

section Jobs

/-- The jobs of the list, one by one. -/
def Store.requeueAll (ids : List String) (st : Store) : Store :=
  ids.foldl (fun st id => st.updateJob id CellJob.requeue) st

theorem mem_requeueAll {ids : List String} : j ∈ (st.requeueAll ids).jobs ↔
    ∃ old ∈ st.jobs, j = if old.jobId ∈ ids then old.requeue else old := by
  induction ids generalizing st with
  | nil => simp [Store.requeueAll]
  | cons id rest ih =>
    rw [Store.requeueAll, List.foldl_cons, ← Store.requeueAll, ih]
    constructor
    · rintro ⟨middle, member, rfl⟩
      obtain ⟨old, stored, rfl⟩ := mem_updateJob.mp member
      refine ⟨old, stored, ?_⟩
      by_cases same : old.jobId = id
      · simp [same, CellJob.requeue]
      · simp [same]
    · rintro ⟨old, stored, rfl⟩
      refine ⟨_, mem_updateJob.mpr ⟨old, stored, rfl⟩, ?_⟩
      by_cases same : old.jobId = id
      · simp [same, CellJob.requeue]
      · simp [same]

theorem requeueRows_ends {ids : List String} : Ends (fun w => w.store = st)
    (ids.forM fun id => do
      mayFail
      requeueRow id) (fun _ w => w.store = st.requeueAll ids) := by
  induction ids generalizing st with
  | nil => exact Meets.pure fun _ h => h
  | cons id rest ih =>
    refine Meets.bind (Q := fun _ w => w.store = st.updateJob id CellJob.requeue) ?_ fun _ => ih
    refine meets_from fun w same => ⟨_, w.at_snapshot, ?_⟩
    refine (meets_mayFail anyQuiet).bind fun _ => Meets.step (fun _ _ => trivial) fun v here => ?_
    show v.store.updateJob id CellJob.requeue = _
    rw [show v.store = st from here.store.trans same]

theorem sweep_ends : Ends (fun w => w.store = st) (jobRequeueExpiredLeases now)
    (fun _ w => w.store = st.requeueAll (st.expiredLeases now)) := by
  refine meets_from fun w same => ⟨_, w.at_snapshot, ?_⟩
  refine (meets_mayFail anyQuiet).bind fun _ => meets_atomically (T := fun _ _ => True)
    (Q := fun _ w => w.store = st.requeueAll (st.expiredLeases now)) ?_
    (fun _ _ _ _ _ done => ⟨.single trivial, done⟩) fun _ _ _ _ => .single trivial
  refine Meets.bind (Q := fun _ w => w.store = st.requeueAll (st.expiredLeases now)) ?_ fun ids => ?_
  · refine (meets_query anyQuiet _).bind fun ids => meets_from fun v ⟨here, found⟩ => ⟨_, here, ?_⟩
    rw [found, show w.snapshot.store = st from same]
    refine Meets.bind (requeueRows_ends.weaken (fun u here => ?_) fun _ _ h => h) fun _ =>
      Meets.pure fun _ h => h
    exact here.store.trans same
  · refine meets_from fun v done => ⟨_, v.at_snapshot, ?_⟩
    refine (meets_mayFail anyQuiet).bind fun _ => Meets.pure fun u here => ?_
    exact here.store.trans done

/-- Started jobs of the cell that an engine had accepted. -/
def Store.accepted (st : Store) (cell : String) : Prop :=
  ∃ j ∈ st.jobs, j.cellName = cell ∧ j.state = .started ∧ j.acceptedByEngineAt ≠ none

/-- Every lease has expired. -/
def Store.LeasesOver (st : Store) (now : String) : Prop :=
  ∀ j ∈ st.jobs, j.leaseExpiresAt.all (· < now) = true

instance : Decidable (Store.LeasesOver st now) := inferInstanceAs (Decidable (∀ j ∈ st.jobs, _))

/-- When all leases have expired, the sweep leaves the accepted jobs started, no others. -/
theorem started_after_sweep {w : World} (inv : Inv w) (jobs : st.jobs = w.store.jobs)
    (expired : st.LeasesOver now) (cell : String) :
    (∃ j ∈ (st.requeueAll (st.expiredLeases now)).jobs, j.cellName = cell ∧ j.state = .started) ↔
      st.accepted cell := by
  have due : ∀ {j}, j ∈ st.jobs → (j.jobId ∈ st.expiredLeases now ↔
      (j.leaseExpiresAt.any (· < now)) = true ∧ j.unaccepted = true) := by
    intro j member
    constructor
    · intro listed
      obtain ⟨other, found, same⟩ := List.mem_map.mp listed
      obtain ⟨stored, late⟩ := List.mem_filter.mp found
      obtain rfl := inv.job_unique (jobs ▸ stored) (jobs ▸ member) same
      exact of_decide_eq_true late
    · exact fun late => List.mem_map.mpr ⟨j, List.mem_filter.mpr ⟨member, decide_eq_true late⟩, rfl⟩
  constructor
  · rintro ⟨j, member, inCell, started⟩
    obtain ⟨old, stored, rfl⟩ := mem_requeueAll.mp member
    split at started
    · cases started
    · rename_i kept
      rw [if_neg kept] at inCell
      refine ⟨old, stored, inCell, started, fun unaccepted => kept ((due stored).mpr ⟨?_, ?_⟩)⟩
      · obtain ⟨lease, leased⟩ := Option.isSome_iff_exists.mp
          (inv.held old (jobs ▸ stored) (.inr started))
        simpa [leased] using expired old stored
      · simp [CellJob.unaccepted, unaccepted, started]
  · rintro ⟨j, stored, inCell, started, accepted⟩
    have kept : j.jobId ∉ st.expiredLeases now := fun listed => by
      have unaccepted := ((due stored).mp listed).2
      simp [CellJob.unaccepted, accepted] at unaccepted
    exact ⟨j, mem_requeueAll.mpr ⟨j, stored, by rw [if_neg kept]⟩, inCell, started⟩

/-- Where no statement fails, the next job is leased unless a started one occupies the cell. -/
theorem jobLeaseNext_clear {w : World} (clear : w.input.faults = []) {cell : String}
    (waiting : ∃ j ∈ w.store.jobs, j.cellName = cell ∧ j.state = .queued) (leaseSecs : Nat) :
    (∃ job, ((jobLeaseNext cell leaseSecs).exec w).1 = .ok (some job)) ↔
      ¬ ∃ j ∈ w.store.jobs, j.cellName = cell ∧ j.state = .started := by
  obtain ⟨j, stored, inCell, queued⟩ := waiting
  have inQueue : j ∈ w.store.queued cell := mem_queued.mpr ⟨stored, inCell, queued⟩
  obtain ⟨head, rest, queue⟩ := List.exists_cons_of_ne_nil (List.ne_nil_of_mem inQueue)
  obtain ⟨first, _⟩ := mem_queued.mp (show head ∈ w.store.queued cell by rw [queue]; simp)
  obtain ⟨expires, w', timed, store, faults⟩ := rfc3339After_clear leaseSecs w
  by_cases occupied : ∃ j ∈ w.store.jobs, j.cellName = cell ∧ j.state = .started
  · simp [jobLeaseNext, mayFail_clear clear, atomically, query_clear _ clear, occupied]
  · have picked : (w.store.queued cell).head? = some head := by rw [queue]; rfl
    obtain ⟨job, found⟩ : ∃ job, (w.store.updateJob head.jobId (.leasedUntil expires)).job
        head.jobId = some job := by
      apply Option.isSome_iff_exists.mp
      rw [Store.job, List.find?_isSome]
      exact ⟨_, mem_updateJob.mpr ⟨head, first, rfl⟩, by simp [CellJob.leasedUntil]⟩
    have clear' : w'.input.faults = [] := faults.trans clear
    have answer : ((jobLeaseNext cell leaseSecs).exec w).1 = .ok (some job) := by
      simp [jobLeaseNext, mayFail_clear clear, atomically, query_clear _ clear, occupied, picked,
        timed, writeJob, mayFail_clear, query_clear, clear', store, found]
    exact ⟨fun _ => occupied, fun _ => ⟨job, answer⟩⟩

end Jobs

/-- What a start finds on disk, what boot recovery makes of it, and what a sweep makes of
that when all leases have expired. -/
structure Recovery (disk : Store) (before after : World) : Prop where
  booted : ∃ v ids, v.store = disk ∧ bootRecovery.exec v = (.ok ids, before)
  swept : ∃ v ids now, v.store = before.store ∧ before.store.LeasesOver now ∧
    (jobRequeueExpiredLeases now).exec v = (.ok ids, after)

theorem Recovery.ends {disk : Store} {before after : World} (recovery : Recovery disk before after) :
    before.store.jobs = disk.jobs ∧ Left ThreadState.active [] before.store ∧
      ∃ now, before.store.LeasesOver now ∧
        after.store = before.store.requeueAll (before.store.expiredLeases now) := by
  obtain ⟨v, ids, onDisk, booted⟩ := recovery.booted
  obtain ⟨v', ids', now, same, expired, swept⟩ := recovery.swept
  have settled := (bootRecovery_ends v onDisk).2 ids (by rw [booted])
  have requeued := (sweep_ends v' same).2 ids' (by rw [swept])
  rw [booted] at settled
  rw [swept] at requeued
  exact ⟨settled.1, settled.2, now, expired, requeued⟩

/-- After a crash at any point, boot recovery leaves no thread active, and a cell with queued
jobs goes on exactly when no engine had accepted a job that the crash left started. -/
theorem recovery_frees_cells_iff [Platform] {w before after : World} {c : FabricConfig}
    (blank : Blank w) (reached : service.Reaches w c)
    (recovery : Recovery c.shared.store before after) :
    (∀ t ∈ before.store.threads, t.state ≠ .spawning ∧ t.state ≠ .running) ∧
    ∀ (cell : String) (leaseSecs : Nat) (v : World), v.store = after.store → v.input.faults = [] →
      (∃ j ∈ after.store.jobs, j.cellName = cell ∧ j.state = .queued) →
      ((∃ job, ((jobLeaseNext cell leaseSecs).exec v).1 = .ok (some job)) ↔
        ¬ c.shared.store.accepted cell) := by
  obtain ⟨jobs, left, now, expired, requeued⟩ := recovery.ends
  constructor
  · intro t member
    have idle : t.state.active = false := by
      by_contra active
      exact absurd (left t member (by simpa using active)) List.not_mem_nil
    constructor <;> intro state <;> simp [state, ThreadState.active] at idle
  · intro cell leaseSecs v same clear waiting
    rw [← same] at waiting
    rw [jobLeaseNext_clear clear waiting, same, requeued,
      started_after_sweep (good_reachable blank reached).1 jobs expired]
    simp only [Store.accepted, jobs]

section Sample

/-- Boot recovery on what a crash left. -/
def bootedAt (w : World) (secs : Nat) : Except BusError (List String) × World :=
  bootRecovery.exec (w.install (moment secs))

/-- The sweep at a time. -/
def sweptAt (w : World) (now : String) : Except BusError (List String) × World :=
  (jobRequeueExpiredLeases now).exec w

theorem recovery_of_ok {w : World} (booted : (bootedAt w secs).1.isOk = true)
    (expired : (bootedAt w secs).2.store.LeasesOver now)
    (swept : (sweptAt (bootedAt w secs).2 now).1.isOk = true) :
    Recovery w.store (bootedAt w secs).2 (sweptAt (bootedAt w secs).2 now).2 := by
  constructor
  · cases ran : (bootedAt w secs).1 with
    | error e => simp [ran, Except.isOk, Except.toBool] at booted
    | ok ids => exact ⟨w.install (moment secs), ids, rfl, Prod.ext ran rfl⟩
  · cases ran : (sweptAt (bootedAt w secs).2 now).1 with
    | error e => simp [ran, Except.isOk, Except.toBool] at swept
    | ok ids => exact ⟨_, ids, now, rfl, expired, Prod.ext ran rfl⟩

/-- A turn is in flight, a follow-up job waits, and the daemon crashes. -/
def crashedInTurn : List (Move (Input Outside) Request Event) :=
  firstTurn ++ sendingTask 1 firstThread 1783242002

theorem recovery_frees_cells_iff_requeued : ∃ c before after job, sampleService.Reaches blankWorld c ∧
    Recovery c.shared.store before after ∧
    ((jobLeaseNext "reviewer" 30).exec after).1 = .ok (some job) := by
  let _ := Platform.sample
  have ran : (sampleService.runs (System.dormant blankWorld) crashedInTurn).map (fun c =>
      let booted := bootedAt c.shared 1783242100
      let swept := sweptAt booted.2 "2026-07-05T10:00:00Z"
      decide (booted.1.isOk = true ∧ booted.2.store.LeasesOver "2026-07-05T10:00:00Z" ∧
        swept.1.isOk = true ∧ swept.2.input.faults = [] ∧
        (∃ j ∈ swept.2.store.jobs, j.cellName = "reviewer" ∧ j.state = .queued) ∧
        (∀ j ∈ c.shared.store.jobs, j.acceptedByEngineAt = none))) = some true := by
    decide +kernel
  obtain ⟨c, run, facts⟩ := Option.map_eq_some_iff.mp ran
  obtain ⟨booted, expired, swept, clear, waiting, unaccepted⟩ := of_decide_eq_true facts
  have reached : sampleService.Reaches blankWorld c := System.leads_of_runs _ run
  have recovery := recovery_of_ok booted expired swept
  have freed := (recovery_frees_cells_iff blankWorld_blank reached recovery).2 "reviewer" 30 _ rfl
    clear waiting
  obtain ⟨job, leased⟩ := freed.mpr fun ⟨j, stored, _, _, accepted⟩ => accepted (unaccepted j stored)
  exact ⟨c, _, _, job, reached, recovery, leased⟩

/-- The engine had accepted the turn: its job blocks the cell after the crash. -/
theorem accepted_job_blocks_cell : ∃ c before after, sampleService.Reaches blankWorld c ∧
    Recovery c.shared.store before after ∧
    (∃ j ∈ after.store.jobs, j.cellName = "reviewer" ∧ j.state = .queued) ∧
    ((jobLeaseNext "reviewer" 30).exec after).1 = .ok none := by
  let _ := Platform.sample
  have ran : (sampleService.runs (System.dormant blankWorld) (firstTurn ++
      [emits 7 (.accepted "t1")] ++ ticking 12 1783242002 ++
      sendingTask 1 firstThread 1783242003)).map (fun c =>
      let booted := bootedAt c.shared 1783242100
      let swept := sweptAt booted.2 "2026-07-05T10:00:00Z"
      decide (booted.1.isOk = true ∧ booted.2.store.LeasesOver "2026-07-05T10:00:00Z" ∧
        swept.1.isOk = true ∧
        (∃ j ∈ swept.2.store.jobs, j.cellName = "reviewer" ∧ j.state = .queued) ∧
        ((jobLeaseNext "reviewer" 30).exec swept.2).1.toOption = some none)) = some true := by
    decide +kernel
  obtain ⟨c, run, facts⟩ := Option.map_eq_some_iff.mp ran
  obtain ⟨booted, expired, swept, waiting, blocked⟩ := of_decide_eq_true facts
  refine ⟨c, _, _, System.leads_of_runs _ run, recovery_of_ok booted expired swept, waiting, ?_⟩
  generalize ((jobLeaseNext "reviewer" 30).exec _).1 = answer at blocked ⊢
  cases answer with
  | ok leased => exact congrArg Except.ok (Option.some.inj blocked)
  | error e => cases blocked

end Sample
end Crewd.Fabric
