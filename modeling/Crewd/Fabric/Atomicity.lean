import Crewd.Fabric.Soundness

/-! The spawn transaction as a whole: whichever of its steps fails, the tables are either
unchanged or have one request, one thread and one job more. A stored request keeps its
thread, so that a replay finds it. -/
namespace Crewd.Fabric
open Autocommit Concurrent Table

section Rules
variable {α β : Type} {st : Store} {faults : List (Option String)} {P P' : World → Prop}
  {Q : α → World → Prop}

/-- The computation answers with `Q`, or fails and leaves the tables as they were. -/
def Whole (st : Store) (P : World → Prop) (m : Act α) (Q : α → World → Prop) : Prop :=
  ∀ w, P w → match m.exec w with
    | (.ok a, w') => Q a w'
    | (.error _, w') => w'.store = st

namespace Whole
variable {m : Act α}

theorem bind {f : α → Act β} {R : β → World → Prop} (first : Whole st P m Q)
    (rest : ∀ a, Whole st (Q a) (f a) R) : Whole st P (m >>= f) R := by
  intro w holds
  have done := first w holds
  rw [Action.exec_bind]
  cases run : m.exec w with
  | mk result w' =>
    rw [run] at done
    cases result with
    | error e => exact done
    | ok a => exact rest a w' done

theorem pure {a : α} (holds : ∀ w, P w → Q a w) : Whole st P (Pure.pure a : Act α) Q := holds

theorem checked {r : Except BusError Unit} {f : Unit → Act α} (same : ∀ w, P w → w.store = st)
    (rest : Whole st P (f ()) Q) : Whole st P (Action.ofExcept r >>= f) Q := by
  cases r with
  | ok u => exact rest
  | error e => exact same

/-- What does not write leaves the tables, whether it answers or fails. -/
theorem silent (silent : Silent m) : Whole st (·.store = st) m (fun _ w => w.store = st) := by
  intro w same
  have quiet := (silent w).store.trans same
  cases run : m.exec w with
  | mk result w' =>
    rw [run] at quiet
    cases result with
    | error e => exact quiet
    | ok a => exact quiet

/-- A rollback undoes whatever was written before the failure. -/
theorem atomically {T : World → World → Prop} {body : Act α} (same : ∀ w, P w → w.store = st)
    (met : ∀ w, P w → Meets T (·.At w.snapshot) body Q) : Whole st P (atomically body) Q := by
  intro w holds
  have answers := (met w holds w w.at_snapshot).2
  simp only [Crewd.atomically, Action.exec_mk]
  cases run : body.exec w with
  | mk result w' =>
    rw [run] at answers
    cases result with
    | error e => exact same w holds
    | ok a => exact answers a rfl

end Whole

/-- The computation answers with `Q`, or fails with the text of a failing statement. -/
def Attempts (faults : List (Option String)) (P : World → Prop) (m : Act α) (Q : α → World → Prop) :
    Prop :=
  ∀ w, P w → w.input.faults ⊆ faults → match m.exec w with
    | (.ok a, w') => Q a w' ∧ w'.input.faults ⊆ faults
    | (.error e, _) => ∃ text, some text ∈ faults ∧ e = .internal text

namespace Attempts
variable {m : Act α}

theorem bind {f : α → Act β} {R : β → World → Prop} (first : Attempts faults P m Q)
    (rest : ∀ a, Attempts faults (Q a) (f a) R) : Attempts faults P (m >>= f) R := by
  intro w holds left
  have done := first w holds left
  rw [Action.exec_bind]
  cases run : m.exec w with
  | mk result w' =>
    rw [run] at done
    cases result with
    | error e => exact done
    | ok a => exact rest a w' done.1 done.2

theorem pure {a : α} (holds : ∀ w, P w → Q a w) : Attempts faults P (Pure.pure a : Act α) Q :=
  fun w here left => ⟨holds w here, left⟩

theorem mayFail : Attempts faults (·.store = st) mayFail (fun _ w => w.store = st) := by
  intro w same left
  simp only [Crewd.mayFail, nextFault, Action.exec_bind, Action.exec_step]
  cases queue : w.input.faults with
  | nil => exact ⟨same, left⟩
  | cons fault later =>
    rw [queue] at left
    cases fault with
    | none => exact ⟨same, fun _ member => left (List.mem_cons_of_mem _ member)⟩
    | some text => exact ⟨text, left List.mem_cons_self, rfl⟩

theorem query (f : Store → α) :
    Attempts faults (·.store = st) (query f) (fun a w => w.store = st ∧ a = f st) :=
  mayFail.bind fun _ _ same left => ⟨⟨same, congrArg f same⟩, left⟩

theorem atomically {body : Act α} (attempts : Attempts faults P body Q) :
    Attempts faults P (atomically body) Q := by
  intro w holds left
  have done := attempts w holds left
  simp only [Crewd.atomically, Action.exec_mk]
  cases run : body.exec w with
  | mk result w' =>
    rw [run] at done
    cases result with
    | error e => exact done
    | ok a => exact done

end Attempts
end Rules

section Transaction
variable {caller cellName key payload : String} {launch : Launch} {depthCap : Nat}

/-- The request, the thread and the job of one spawn, linked to each other. -/
structure Linked (caller cellName key payload : String) (row : SpawnRow) (thread : CellThread)
    (job : CellJob) : Prop where
  request : row.is caller cellName key = true
  state : thread.state = .spawning
  threadCell : thread.cellName = cellName
  queued : job.state = .queued
  payload : job.payload = payload
  jobCell : job.cellName = cellName
  rowThread : row.crewdThreadId = thread.crewdThreadId
  jobThread : job.crewdThreadId = thread.crewdThreadId

/-- The lock rows with one for the cell. -/
def Store.locksWith (st : Store) (cellName : String) : List String :=
  if st.cellLocks.contains cellName then st.cellLocks else st.cellLocks ++ [cellName]

/-- The tables with the rows of one spawn, or as they were. -/
def Settled (caller cellName key payload : String) (st : Store) :
    Except BusError (CellThread × Bool) → Store → Prop
  | .ok (thread, false), st' => ∃ row job, Linked caller cellName key payload row thread job ∧
    st' = st.spawn (st.locksWith cellName) row thread job
  | .ok (thread, true), st' => st' = st ∧ thread ∈ st.threads ∧
    ∃ row ∈ st.spawnRequests, row.is caller cellName key = true ∧
      row.crewdThreadId = thread.crewdThreadId
  | .error _, st' => st' = st

/-- The tables at the commit. -/
def Transacted (caller cellName key payload : String) (st : Store) :
    String ⊕ CellThread → World → Prop
  | .inl threadId, w => w.store = st ∧
    ∃ row ∈ st.spawnRequests, row.is caller cellName key = true ∧ row.crewdThreadId = threadId
  | .inr thread, w => ∃ row job, Linked caller cellName key payload row thread job ∧
    w.store = st.spawn (st.locksWith cellName) row thread job

variable [Platform] {now : Snap}

/-- The job of the new thread goes into the queue. -/
theorem jobEnqueueInner_adds (threadId cell payload : String) (depthCap : Nat) :
    Meets (fun _ _ => True) (·.At now) (jobEnqueueInner threadId cell payload depthCap)
      (fun job w => job.crewdThreadId = threadId ∧ job.cellName = cell ∧ job.payload = payload ∧
        job.state = .queued ∧
        w.store = { now.store with jobs := now.store.jobs ++ [job] }) := by
  have quiet : ∀ w w' : World, w.Quiet w' → True := fun _ _ _ => trivial
  refine (meets_query quiet _).bind fun count => Meets.ite (fun _ => Meets.throw) fun below => ?_
  refine meets_from fun _ ⟨here, _⟩ => ⟨_, here, ?_⟩
  refine (meets_query quiet _).bind fun seq => meets_from fun _ ⟨here, _⟩ => ⟨_, here, ?_⟩
  refine (meets_newUuidv7 quiet).bind fun jobId => meets_from fun _ ⟨n, _, _, here⟩ => ⟨_, here, ?_⟩
  refine (Silent.nowRfc3339.meets quiet).bind fun createdAt => ?_
  refine (meets_insertInto quiet fun _ _ _ => trivial).bind fun _ => Meets.pure fun w ⟨_, here⟩ => ?_
  exact ⟨rfl, rfl, rfl, rfl, here.store⟩

omit [Platform] in
/-- The thread is new, and linked to the request that names it and to its job. -/
theorem linked_rows {threadId time : String} {job : CellJob} (named : job.crewdThreadId = threadId)
    (placed : job.cellName = cellName) (carries : job.payload = payload)
    (queued : job.state = .queued) :
    Linked caller cellName key payload ⟨caller, cellName, key, threadId, time⟩
      ⟨threadId, cellName, launch.engine, launch.model, launch.profile, none, none, none, none,
        launch.cwd, launch.worktreePath, .spawning, 0, caller, key, time, time⟩ job where
  request := by simp [SpawnRow.is]
  state := rfl
  threadCell := rfl
  queued := queued
  payload := carries
  jobCell := placed
  rowThread := rfl
  jobThread := named

/-- A call that passes the validators writes its rows together, or finds its request. -/
theorem spawnIdempotent_whole {st : Store} : Whole st (·.store = st)
    (spawnIdempotent caller cellName key payload launch depthCap)
    (fun r w => Settled caller cellName key payload st (.ok r) w.store) := by
  have quiet : ∀ w w' : World, w.Quiet w' → True := fun _ _ _ => trivial
  refine Whole.checked (fun _ same => same) (Whole.checked (fun _ same => same) ?_)
  refine Whole.bind (.silent .mayFail) fun _ => Whole.bind (Whole.atomically (T := fun _ _ => True)
    (Q := Transacted caller cellName key payload st) (fun _ same => same) fun w same => ?_) fun o => ?_
  · refine (meets_query quiet _).bind fun row => meets_from fun _ ⟨here, found⟩ => ⟨_, here, ?_⟩
    cases row with
    | some row =>
      refine (meets_mayFail quiet).bind fun _ => Meets.pure fun v here => ⟨here.store.trans same, row, ?_⟩
      have stored := List.mem_of_find?_eq_some found.symm
      exact ⟨same ▸ stored, by simpa using List.find?_some found.symm, rfl⟩
    | none =>
      refine (meets_append quiet fun _ _ => trivial).bind fun logged => ?_
      cases logged with
      | error e => exact Meets.throw
      | ok u =>
        refine meets_from fun _ h => ⟨_, h.1 rfl, ?_⟩
        refine (meets_execute quiet fun _ _ => trivial).bind fun _ => meets_from fun _ here => ⟨_, here, ?_⟩
        refine (meets_query quiet _).bind fun present => meets_from fun _ ⟨here, _⟩ => ⟨_, here, ?_⟩
        refine Meets.ite (fun _ => Meets.throw) fun _ => ?_
        refine (meets_query quiet _).bind fun active => meets_from fun _ ⟨here, _⟩ => ⟨_, here, ?_⟩
        refine Meets.ite (fun _ => Meets.throw) fun _ => ?_
        refine (meets_newUuidv7 quiet).bind fun threadId => meets_from fun _ ⟨n, _, _, here⟩ =>
          ⟨_, here, ?_⟩
        refine (Silent.nowRfc3339.meets quiet).bind fun time => ?_
        refine (meets_insertInto quiet fun _ _ _ => trivial).bind fun _ =>
          meets_from fun _ ⟨_, here⟩ => ⟨_, here, ?_⟩
        refine (meets_insertInto quiet fun _ _ _ => trivial).bind fun _ =>
          meets_from fun _ ⟨_, here⟩ => ⟨_, here, ?_⟩
        refine (jobEnqueueInner_adds _ _ _ _).bind fun job => ?_
        refine meets_from fun v ⟨named, placed, carries, queued, store⟩ => ⟨_, v.at_snapshot, ?_⟩
        refine (meets_mayFail quiet).bind fun _ => Meets.pure fun v' here => ?_
        refine ⟨_, job, linked_rows named placed carries queued, here.store.trans (store.trans ?_)⟩
        subst same
        rfl
  · cases o with
    | inr thread => exact Whole.pure fun _ transacted => transacted
    | inl threadId =>
      rintro w ⟨same, row, stored, keyed, named⟩
      have read := Silent.query (S := Store) (M := Memory) (X := Outside) (K := Mark)
        (·.thread threadId) w
      rw [Action.exec_bind]
      cases ran : (query (·.thread threadId) : Act _).exec w with
      | mk r w' =>
        rw [ran] at read
        cases r with
        | error e => exact read.store.trans same
        | ok found =>
          cases found with
          | none => exact read.store.trans same
          | some thread =>
            have known := query_reads (by rw [ran])
            rw [same] at known
            obtain ⟨member, id⟩ := thread_of_find known.symm
            exact ⟨read.store.trans same, member, row, stored, keyed, named.trans id.symm⟩

/-- A request that is stored is found again, with its thread. -/
theorem spawnIdempotent_replays {st : Store} {row : SpawnRow} {thread : CellThread} (w : World)
    (same : w.store = st) (stored : row ∈ st.spawnRequests)
    (keyed : row.is caller cellName key = true)
    (once : ∀ r ∈ st.spawnRequests, r.is caller cellName key = true → r = row)
    (known : st.thread row.crewdThreadId = some thread)
    (valid : validateCellNameAllowingEphemeral cellName = .ok () ∧
      validateIdempotencyKey key = .ok ()) :
    ((spawnIdempotent caller cellName key payload launch depthCap).exec w).1 = .ok (thread, true) ∨
      ∃ text, some text ∈ w.input.faults ∧
        ((spawnIdempotent caller cellName key payload launch depthCap).exec w).1 =
          .error (.internal text) := by
  have found : st.spawnRequests.find? (·.is caller cellName key) = some row := by
    cases look : st.spawnRequests.find? (·.is caller cellName key) with
    | none => exact absurd keyed (List.find?_eq_none.mp look row stored)
    | some r => rw [once r (List.mem_of_find?_eq_some look) (by simpa using List.find?_some look)]
  have attempts : Attempts w.input.faults (·.store = st)
      (spawnIdempotent caller cellName key payload launch depthCap)
      (fun r _ => r = (thread, true)) := by
    unfold spawnIdempotent
    rw [valid.1, valid.2]
    refine Attempts.bind (.pure fun _ same => same) fun _ => Attempts.bind (.pure fun _ same => same)
      fun _ => Attempts.bind .mayFail fun _ => Attempts.bind (Attempts.atomically (Q := fun o v =>
        v.store = st ∧ o = .inl row.crewdThreadId) ?_) fun o => ?_
    · refine Attempts.bind (.query _) fun r v ⟨same, read⟩ left => ?_
      rw [read, found]
      exact Attempts.bind .mayFail (fun _ => .pure fun v' kept => ⟨kept, rfl⟩) v same left
    · intro v ⟨same, ended⟩ left
      subst ended
      refine Attempts.bind (.query _) (fun r v' ⟨_, read⟩ left' => ?_) v same left
      rw [read, known]
      exact ⟨rfl, left'⟩
  have done := attempts w same (List.Subset.refl _)
  cases ran : (spawnIdempotent caller cellName key payload launch depthCap).exec w with
  | mk r w' =>
    rw [ran] at done
    cases r with
    | error e =>
      obtain ⟨text, failing, rfl⟩ := done
      exact .inr ⟨text, failing, rfl⟩
    | ok a => exact .inl (by rw [done.1])

end Transaction

section Requests

/-- Every request that is stored has passed the validators. -/
def Validated (st : Store) : Prop := ∀ row ∈ st.spawnRequests,
  validateCellNameAllowingEphemeral row.cellName = .ok () ∧
    validateIdempotencyKey row.idempotencyKey = .ok ()

theorem Calm.validated (step : Calm w w') (valid : Validated w.store) : Validated w'.store := by
  cases step with
  | quiet same => rw [same.store]; exact valid
  | spawned locks row thread job spawns =>
    intro r member
    rcases List.mem_append.mp member with old | new
    · exact valid r old
    · rw [List.mem_singleton.mp new]
      exact spawns.valid
  | _ => exact valid

theorem Statement.validated (step : Statement self w w') (valid : Validated w.store) :
    Validated w'.store := by
  cases step with
  | calm step => exact step.validated valid
  | polled threadId turn _ _ => rw [(poll_leaves turn w).1]; exact valid
  | overdue threadId _ =>
    simp only [takeTurn, Action.exec_step]
    split <;> exact valid
  | _ => exact valid

end Requests

/-- Every call leaves the tables with one request, thread and job more, linked to each
other, or as they were; and every request in a reachable state has its thread, with which
a replay answers unless one of its statements fails. -/
theorem spawn_all_or_nothing [Platform] {w : World} {c : FabricConfig} (blank : Blank w)
    (reached : service.Reaches w c) :
    (∀ (v : World) (caller cellName key payload : String) (launch : Launch) (depthCap : Nat),
      let (r, v') := (spawnIdempotent caller cellName key payload launch depthCap).exec v
      Settled caller cellName key payload v.store r v'.store) ∧
    ∀ row ∈ c.shared.store.spawnRequests, ∃ thread ∈ c.shared.store.threads,
      thread.crewdThreadId = row.crewdThreadId ∧
      ∀ (i : Input Outside) (payload : String) (launch : Launch) (depthCap : Nat),
        let r := ((spawnIdempotent row.caller row.cellName row.idempotencyKey payload launch
          depthCap).exec (c.shared.install i)).1
        r = .ok (thread, true) ∨ ∃ text, some text ∈ i.faults ∧ r = .error (.internal text) := by
  constructor
  · intro v caller cellName key payload launch depthCap
    have atomic : Whole v.store (·.store = v.store)
        (spawnIdempotent caller cellName key payload launch depthCap)
        (fun r w => Settled caller cellName key payload v.store (.ok r) w.store) :=
      spawnIdempotent_whole
    have whole := atomic v rfl
    split at whole
    · next ran => rw [ran]; exact whole
    · next ran => rw [ran]; exact whole
  · intro row stored
    have inv := (good_reachable blank reached).1
    have valid : Validated c.shared.store := by
      apply always (P := fun s => Validated s.store) blank reached
      · rw [blank.store]
        intro r member
        cases member
      · exact fun _ _ _ step _ valid => step.validated valid
    obtain ⟨thread, member, id, _⟩ := inv.requestLinked row stored
    refine ⟨thread, member, id, fun i payload launch depthCap => ?_⟩
    have keyed : row.is row.caller row.cellName row.idempotencyKey = true := by simp [SpawnRow.is]
    refine spawnIdempotent_replays (c.shared.install i) rfl stored keyed
      (fun r also is => inv.request_unique also stored is keyed) ?_ (valid row stored)
    rw [← id]
    exact inv.thread_found member

section Sample

theorem spawn_all_or_nothing_spawned : ∃ c row thread, sampleService.Reaches blankWorld c ∧
    c.shared.store.spawnRequests = [row] ∧ row.caller = "coder" ∧
    thread ∈ c.shared.store.threads ∧ thread.crewdThreadId = row.crewdThreadId := by
  let _ := Platform.sample
  have ran : (sampleService.runs (System.dormant blankWorld)
      (start 1783242000 :: .event (.cellRegistered reviewer) :: spawning 0 "k1" 1783242000)).map
        (fun c => c.shared.store.spawnRequests) =
      some [⟨"coder", "reviewer", "k1", firstThread, "2026-07-05T09:00:00Z"⟩] := by
    decide +kernel
  obtain ⟨c, run, rows⟩ := Option.map_eq_some_iff.mp ran
  have path : sampleService.Reaches blankWorld c := System.leads_of_runs _ run
  have stored : _ ∈ c.shared.store.spawnRequests := rows ▸ List.mem_cons_self
  obtain ⟨thread, member, id, _⟩ := (spawn_all_or_nothing blankWorld_blank path).2 _ stored
  exact ⟨c, _, thread, path, rows, rfl, member, id⟩

end Sample
end Crewd.Fabric
