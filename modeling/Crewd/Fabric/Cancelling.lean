import Crewd.Fabric.Soundness

/-! What a cancel leaves behind. The call cancels every active job of the thread and
interrupts it when it runs; a thread that has not yet run has no such transition, so it
stays active, and its cell occupied, without a job that could start it. -/
namespace Crewd.Fabric
open Autocommit Concurrent Table

/-- The thread is over: it is not active, it has no active job, and it is not what a spawn
on its cell finds busy. -/
structure ThreadEnded (threadId : String) (st : Store) : Prop where
  thread : ∀ t ∈ st.threads, t.crewdThreadId = threadId → t.state.active = false
  jobs : ∀ j ∈ st.jobs, j.crewdThreadId = threadId → j.state.active = false
  free : ∀ cell busy, st.threadActiveForCell cell = some busy → busy.crewdThreadId ≠ threadId

/-- The section of a cancel that changes the tables, with the count that is answered. -/
def Cancels (caller threadId : String) (answer : Answer) (w w' : World) : Prop :=
  ∃ count cell, (cancelThread caller threadId).exec w = (.ok (count, cell), w') ∧
    answer = .cancelled count

section Section
variable {w w' : World} {id caller : String}

theorem latest_mem {threads : List CellThread} (found : latest threads = some t) : t ∈ threads := by
  induction threads with
  | nil => cases found
  | cons first rest ih =>
    simp only [latest] at found
    split at found
    · cases found
      exact List.mem_cons_self
    · rename_i later known
      split at found
      · cases found
        exact List.mem_cons_of_mem _ (ih known)
      · cases found
        exact List.mem_cons_self

/-- The active jobs of the thread are among those that remain to be cancelled. -/
def Remaining (threads : List CellThread) (id : String) (jobs : List CellJob) (w : World) : Prop :=
  w.store.threads = threads ∧ ∀ j ∈ w.store.jobs, j.crewdThreadId = id → j.state.active = true →
    ∃ listed ∈ jobs, listed.jobId = j.jobId

theorem cancelAll_leaves {threads : List CellThread} (jobs : List CellJob) :
    Meets (fun _ _ => True) (Remaining threads id jobs) (jobs.forM fun j => jobCancel j.jobId)
      (fun _ => Remaining threads id []) := by
  induction jobs with
  | nil => exact Meets.pure fun _ remaining => remaining
  | cons job rest ih =>
    refine Meets.bind (Q := fun _ => Remaining threads id rest) (meets_from fun w remaining =>
      ⟨_, w.at_snapshot, ?_⟩) fun _ => ih
    refine (jobSetState_meets (fun _ _ _ => trivial) fun _ _ _ _ => trivial).weaken (fun _ h => h)
      fun _ v ⟨row, found, here⟩ => ⟨?_, fun j stored own active => ?_⟩
    · rw [here.store]
      exact remaining.1
    · rw [here.store] at stored
      obtain ⟨old, known, rfl⟩ := mem_updateJob.mp stored
      have named : row.jobId = job.jobId := (job_of_find found).2
      by_cases hit : old.jobId = row.jobId
      · rw [if_pos hit] at active
        cases active
      · rw [if_neg hit] at own active ⊢
        obtain ⟨listed, member, same⟩ := remaining.2 old known own active
        rcases List.mem_cons.mp member with rfl | later
        · exact absurd (same.symm.trans named.symm) hit
        · exact ⟨listed, later, same⟩

/-- The thread is interrupted if it runs, and none of its jobs is active any more. -/
structure Quit (thread : CellThread) (st st' : Store) : Prop where
  threads : if thread.state = .running
    then ∃ time, st'.threads = (st.updateThread thread.crewdThreadId
      (CellThread.movedTo .interrupted time)).threads
    else st'.threads = st.threads
  jobs : ∀ j ∈ st'.jobs, j.crewdThreadId = thread.crewdThreadId → j.state.active = false

theorem interruptRunning_quits {thread : CellThread} {st : Store}
    (known : thread.crewdThreadId = id) :
    Meets (fun _ _ => True) (Remaining st.threads id []) (interruptRunning thread)
      (fun _ w => Quit thread st w.store) := by
  have idle : ∀ w : World, Remaining st.threads id [] w → ∀ j ∈ w.store.jobs,
      j.crewdThreadId = thread.crewdThreadId → j.state.active = false := by
    intro w remaining j stored own
    by_contra active
    obtain ⟨_, none, _⟩ := remaining.2 j stored (own.trans known) (by simpa using active)
    cases none
  by_cases running : thread.state = .running
  · rw [interruptRunning, if_pos running]
    refine meets_from fun w remaining => ⟨_, w.at_snapshot, ?_⟩
    refine (threadTransition_meets (fun _ _ _ => trivial) fun _ _ _ _ _ _ => trivial).weaken
      (fun _ h => h) fun _ v ⟨time, t, _, _, here⟩ => ⟨?_, ?_⟩
    · rw [if_pos running, here.store]
      refine ⟨time, ?_⟩
      simp only [Store.updateThread]
      rw [← remaining.1]
      rfl
    · rw [here.store]
      exact idle w remaining
  · rw [interruptRunning, if_neg running]
    refine Meets.pure fun w remaining => ⟨?_, idle w remaining⟩
    rw [if_neg running]
    exact remaining.1

theorem cancelThread_quits : Meets (fun _ _ => True) (·.At w.snapshot) (cancelThread caller id)
    (fun _ w' => ∃ thread, w.store.thread id = some thread ∧ Quit thread w.store w'.store) := by
  have quiet : ∀ w w' : World, w.Quiet w' → True := fun _ _ _ => trivial
  refine Meets.bind (Q := fun thread v => v.At w.snapshot ∧ w.store.thread id = some thread) ?_
    fun thread => Meets.given fun v ⟨here, found⟩ => ⟨(·.At w.snapshot), here, ?_⟩
  · refine (meets_query quiet _).bind fun row => ?_
    cases row with
    | none => exact Meets.throw
    | some thread => exact Meets.pure fun v ⟨here, found⟩ => ⟨here, found.symm⟩
  refine Meets.bind (Q := fun _ v => v.At w.snapshot) (Meets.ite (fun _ => Meets.pure fun _ h => h)
    fun _ => (checkCapability_silent _ _).meets quiet) fun _ => ?_
  refine (meets_query quiet _).bind fun jobs => meets_from fun v ⟨here, read⟩ => ⟨_, here, ?_⟩
  subst read
  have start : ∀ v : World, v.At w.snapshot →
      Remaining w.store.threads id ((w.store.jobsForThread id).filter (·.state.active)) v := by
    intro v here
    refine ⟨congrArg Store.threads here.store, fun j stored own active => ⟨j, ?_, rfl⟩⟩
    rw [here.store] at stored
    refine List.mem_filter.mpr ⟨?_, active⟩
    exact (List.mem_insertionSort _).mpr (List.mem_filter.mpr ⟨stored, by simpa using own⟩)
  refine Meets.bind ((cancelAll_leaves _).weaken start fun _ _ h => h) fun _ => ?_
  refine (interruptRunning_quits (thread_of_find found).2).bind fun _ => Meets.pure fun _ quit => ?_
  exact ⟨thread, found, quit⟩

/-- A thread that the cancel leaves is interrupted if it ran, and else as it was. -/
theorem Quit.states {thread : CellThread} {st st' : Store} (quit : Quit thread st st')
    (unique : ∀ t ∈ st.threads, t.crewdThreadId = thread.crewdThreadId → t = thread) :
    ∀ t ∈ st'.threads, t.crewdThreadId = thread.crewdThreadId →
      t.state = if thread.state = .running then .interrupted else thread.state := by
  intro t member named
  have threads := quit.threads
  split at threads
  · obtain ⟨time, moved⟩ := threads
    rw [moved] at member
    obtain ⟨old, known, rfl⟩ := mem_updateThread.mp member
    rename_i running
    rw [if_pos running]
    by_cases same : old.crewdThreadId = thread.crewdThreadId
    · rw [if_pos same]
      rfl
    · rw [if_neg same] at named
      exact absurd named same
  · rename_i idle
    rw [threads] at member
    rw [if_neg idle, unique t member named]

/-- The thread stays among the threads. -/
theorem Quit.stays {thread : CellThread} {st st' : Store} (quit : Quit thread st st')
    (member : thread ∈ st.threads) :
    ∃ t ∈ st'.threads, t.crewdThreadId = thread.crewdThreadId := by
  have threads := quit.threads
  split at threads
  · obtain ⟨time, moved⟩ := threads
    rw [moved]
    refine ⟨_, mem_updateThread.mpr ⟨thread, member, rfl⟩, ?_⟩
    rw [if_pos rfl]
    rfl
  · exact ⟨thread, threads ▸ member, rfl⟩

/-- The thread is over exactly when it was not waiting for its first turn. -/
theorem Quit.ended_iff {thread : CellThread} {st st' : Store} (quit : Quit thread st st')
    (member : thread ∈ st.threads)
    (unique : ∀ t ∈ st.threads, t.crewdThreadId = thread.crewdThreadId → t = thread) :
    ThreadEnded thread.crewdThreadId st' ↔ thread.state ≠ .spawning := by
  have states := quit.states unique
  constructor
  · intro ended waits
    obtain ⟨t, stored, named⟩ := quit.stays member
    have idle := ended.thread t stored named
    rw [states t stored named, waits] at idle
    cases idle
  · intro begun
    have inactive : ∀ t ∈ st'.threads, t.crewdThreadId = thread.crewdThreadId →
        t.state.active = false := by
      intro t stored named
      rw [states t stored named]
      cases state : thread.state with
      | spawning => exact absurd state begun
      | _ => rfl
    refine ⟨inactive, quit.jobs, fun cell busy found named => ?_⟩
    have listed := List.mem_filter.mp (latest_mem found)
    have active : busy.cellName = cell ∧ busy.state.active = true := of_decide_eq_true listed.2
    rw [inactive busy listed.1 named] at active
    cases active.2

end Section

section Call
variable {caller : String} {p : CellCancelParams}

/-- What a cancel does once its section has changed the tables. -/
def announceCancel (caller : String) (p : CellCancelParams) (r : Nat × String) : Handler Answer := do
  locked (audit "cell_cancelled" (some p.crewdThreadId) (some caller) none "cancelled" none)
  locked (writeMemory fun m => ((), { m with cancels := m.cancels ++ [r.2] }))
  pure (.cancelled r.1)

/-- The call from that section on. -/
def cancelOn (caller : String) (p : CellCancelParams) : Handler Answer := do
  let r ← locked (cancelThread caller p.crewdThreadId)
  announceCancel caller p r

def CancelsOn (caller : String) (params : Params CellCancelParams)
    (code : Process World (Input Outside) (Except BusError Answer)) : Prop :=
  ∃ p, params.parsed = .ok p ∧ code = (cancelOn caller p).run

theorem handleCancel_decides [Platform] (task : Nat) (caller : String)
    (params : Params CellCancelParams) :
    (service.program task (.cancel caller params)).Decides (CancelsOn caller params) Fails := by
  refine decides_bind fun _ => decides_parse fun p parsed => decides_bind fun _ => ?_
  exact .inl ⟨p, parsed, rfl⟩

/-- The sections after it leave the tables. -/
theorem announceCancel_apart (r : Nat × String) : (announceCancel caller p r).run.Apart
    (fun _ => False) fun w w' => w'.store = w.store := by
  constructor
  · exact .inr fun i w => audit_store _ _ _ _ _ _ (w.install i)
  · intro i w
    change Process.Apart _ _ (ExceptT.bindCont _ ((audit "cell_cancelled" _ _ _ _ _).exec
      (w.install i)).1)
    cases ((audit "cell_cancelled" (some p.crewdThreadId) (some caller) none "cancelled" none).exec
      (w.install i)).1 with
    | error e => trivial
    | ok u => exact ⟨.inr fun _ _ => rfl, fun _ _ => trivial⟩

/-- The answer is the count. -/
theorem announceCancel_answers (r : Nat × String) : (announceCancel caller p r).run.Decides
    (fun _ => False) fun answer => ∀ a, answer = .ok a → a = .cancelled r.1 := by
  refine .inr fun i w => ?_
  change Process.Decides _ _ (ExceptT.bindCont _ ((audit "cell_cancelled" _ _ _ _ _).exec
    (w.install i)).1)
  cases ((audit "cell_cancelled" (some p.crewdThreadId) (some caller) none "cancelled" none).exec
    (w.install i)).1 with
  | error e => exact fun a same => by cases same
  | ok u => exact .inr fun _ _ a same => by cases same; rfl

theorem cancelOn_step {i : Input Outside}
    {code : Process World (Input Outside) (Except BusError Answer)}
    (ran : (cancelOn caller p).run.step i w = some (code, t)) :
    t = ((cancelThread caller p.crewdThreadId).exec (w.install i)).2 ∧
    code = match ((cancelThread caller p.crewdThreadId).exec (w.install i)).1 with
      | .ok r => (announceCancel caller p r).run
      | .error e => .done (.error e) := by
  cases ran
  refine ⟨rfl, ?_⟩
  change ExceptT.bindCont _ ((cancelThread caller p.crewdThreadId).exec (w.install i)).1 = _
  cases ((cancelThread caller p.crewdThreadId).exec (w.install i)).1 with
  | ok r => rfl
  | error e => rfl

end Call

/-- A cancel that succeeds has changed the tables in one section, after which the thread is
over exactly when it was not in state `spawning`; the rest of the call leaves the tables. -/
theorem cancel_ends_thread_iff [Platform] {w : World} {d : FabricConfig}
    {params : Params CellCancelParams} (blank : Blank w) (reached : service.Reaches w d)
    (parsed : params.parsed = .ok p)
    (answered : d.pool[task]? = some (.cancel caller params, some (.done (.ok answer)))) :
    ∃ b i b', service.Reaches w b ∧ service.next b (.run task i) = some b' ∧ service.Leads b' d ∧
      Cancels caller p.crewdThreadId answer (b.shared.install i) b'.shared ∧
      (∀ c j c', service.Leads b' c → service.next c (.run task j) = some c' →
        c'.shared.store = c.shared.store) ∧
      (ThreadEnded p.crewdThreadId b'.shared.store ↔ ∀ t ∈ b.shared.store.threads,
        t.crewdThreadId = p.crewdThreadId → t.state ≠ .spawning) := by
  obtain ⟨b, b', i, code, code', before, found, ⟨p', parsed', rfl⟩, moved, ran, there, later⟩ :=
    (System.passed_of_answer (fun k => handleCancel_decides k caller params) reached answered
      fun failed => failed _ rfl).move
  cases parsed.symm.trans parsed'
  obtain ⟨shared, rest⟩ := cancelOn_step ran
  have on := (System.task_becomes later there answered).2
  cases result : ((cancelThread caller p.crewdThreadId).exec (b.shared.install i)).1 with
  | error e =>
    rw [rest, result] at on
    cases on.of_done
  | ok r =>
    rw [result] at rest
    subst rest
    have counted := (announceCancel_answers r).becomes on answer rfl
    refine ⟨b, i, b', before, moved, later, ⟨r.1, r.2, ?_, counted⟩, fun c j c' leads stepped => ?_, ?_⟩
    · rw [shared, ← result]
    · obtain ⟨request, code, code', found', ran', _⟩ := System.run_next stepped
      obtain ⟨_, becomes⟩ := System.task_becomes leads there found'
      have apart := (announceCancel_apart r).becomes becomes
      obtain ⟨_, ready, act, next, rfl, _, moves⟩ := (Process.Becomes.refl code).step ran'
      rw [moves]
      exact (apart.1.resolve_left id) j c.shared
    · obtain ⟨thread, known, quit⟩ := (cancelThread_quits (w := b.shared.install i) _
        (World.at_snapshot _)).2 r result
      rw [← shared] at quit
      have inv := (good_reachable blank before).1
      obtain ⟨member, named⟩ := thread_of_find known
      have unique : ∀ t ∈ b.shared.store.threads, t.crewdThreadId = thread.crewdThreadId →
          t = thread := fun t stored same => inv.thread_unique stored member same
      rw [← named]
      refine (quit.ended_iff member unique).trans ⟨fun begun t stored same => ?_, fun begun => ?_⟩
      · rw [unique t stored same]
        exact begun
      · exact begun thread member rfl

section Sample

/-- The thread is cancelled while it runs, and is interrupted. -/
theorem cancel_ends_thread_iff_running : ∃ d b i b', sampleService.Reaches blankWorld d ∧
    d.answer 1 = some (.ok (.cancelled 1)) ∧
    d.shared.store.threads.map (fun t => (t.crewdThreadId, t.state)) = [(firstThread, .interrupted)] ∧
    sampleService.next b (.run 1 i) = some b' ∧ sampleService.Leads b' d ∧
    (ThreadEnded firstThread b'.shared.store ↔ ∀ t ∈ b.shared.store.threads,
      t.crewdThreadId = firstThread → t.state ≠ .spawning) := by
  let _ := Platform.sample
  let request : Request := .cancel "coder" ⟨["crewd_thread_id"], .ok ⟨firstThread⟩⟩
  have ran : ((sampleService.runs (System.dormant blankWorld) firstTurn).bind fun c =>
      (sampleService.next c (.call request)).bind fun c' =>
        (sampleService.runs c' (sections 1 4 1783242003)).map fun d => decide (
          c.pool.length = 1 ∧ d.answer 1 = some (.ok (.cancelled 1)) ∧
          d.shared.store.threads.map (fun t => (t.crewdThreadId, t.state)) =
            [(firstThread, .interrupted)])) = some true := by
    decide +kernel
  obtain ⟨c, first, ran⟩ := Option.bind_eq_some_iff.mp ran
  obtain ⟨c', called, ran⟩ := Option.bind_eq_some_iff.mp ran
  obtain ⟨d, last, facts⟩ := Option.map_eq_some_iff.mp ran
  obtain ⟨one, answered, threads⟩ := of_decide_eq_true facts
  have path : sampleService.Leads c' d := System.leads_of_runs _ last
  have reached := (System.Leads.next (System.leads_of_runs _ first) called).trans _ path
  have finished := System.answered_call called path (one.symm ▸ answered)
  obtain ⟨b, i, b', _, moved, later, _, _, iff⟩ :=
    cancel_ends_thread_iff blankWorld_blank reached rfl (one ▸ finished)
  exact ⟨d, b, i, b', reached, answered, threads, moved, later, iff⟩

/-- The thread has not had its first turn when it is cancelled: it stays as it is, and
after some ticks the next spawn still finds its cell busy. -/
theorem cancelled_thread_occupies_cell : ∃ c d, sampleService.Reaches blankWorld c ∧
    c.answer 1 = some (.ok (.cancelled 1)) ∧ ¬ ThreadEnded firstThread c.shared.store ∧
    sampleService.Leads c d ∧ d.answer 2 =
      some (.error (.cellBusy "cell reviewer already has an active thread")) := by
  let _ := Platform.sample
  have ran : ((sampleService.runs (System.dormant blankWorld) (start 1783242000 ::
      .event (.cellRegistered reviewer) :: spawning 0 "k1" 1783242000 ++
        cancelling 1 firstThread 4 1783242001)).bind fun c =>
      (sampleService.runs c (ticking 20 1783242002 ++ spawning 2 "k2" 1783242003)).map fun d =>
        decide (c.answer 1 = some (.ok (.cancelled 1)) ∧
          c.shared.store.threads.map (fun t => (t.crewdThreadId, t.state)) =
            [(firstThread, .spawning)] ∧
          d.answer 2 = some (.error (.cellBusy "cell reviewer already has an active thread")))) =
      some true := by
    decide +kernel
  obtain ⟨c, first, ran⟩ := Option.bind_eq_some_iff.mp ran
  obtain ⟨d, later, facts⟩ := Option.map_eq_some_iff.mp ran
  obtain ⟨answered, threads, busy⟩ := of_decide_eq_true facts
  refine ⟨c, d, System.leads_of_runs _ first, answered, fun ended => ?_, System.leads_of_runs _ later,
    busy⟩
  obtain ⟨t, stored, same⟩ := List.mem_map.mp (threads ▸ List.mem_cons_self)
  simp only [Prod.mk.injEq] at same
  have idle := ended.thread t stored same.1
  rw [same.2] at idle
  cases idle

end Sample
end Crewd.Fabric
