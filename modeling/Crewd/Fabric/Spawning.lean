import Crewd.Fabric.Conduct

/-! The tool calls of the fabric, section by section. A spawn is recorded with its
target, and its answer is what was recorded. -/
namespace Crewd.Fabric
open Autocommit Concurrent Table

variable {self : Actor} {caller cellName key payload : String} {now : Snap}

section Spawn

/-- What a spawn did to the tables. -/
structure SpawnOutcome (w : World) (caller cellName key : String) (r : CellThread × Bool)
    (w' : World) : Prop where
  history : w'.history = w.history
  row : ∃ row ∈ w'.store.spawnRequests, row.is caller cellName key = true ∧
    row.crewdThreadId = r.1.crewdThreadId
  created : r.2 = false → (∀ row ∈ w.store.spawnRequests, row.is caller cellName key = false) ∧
    w'.store.rows = (w.store.rows.1 + 1, w.store.rows.2 + 1)
  replayed : r.2 = true → w'.store.rows = w.store.rows

theorem latest_eq_none {threads : List CellThread} : latest threads = none ↔ threads = [] := by
  cases threads with
  | nil => simp [latest]
  | cons t rest =>
    simp only [latest, reduceCtorEq, iff_false]
    split
    · simp
    · split <;> simp

/-- No thread of the cell is active. -/
theorem inactive_of_none {st : Store} (none : st.threadActiveForCell cellName = none) :
    ∀ t ∈ st.threads, t.cellName = cellName → t.state.active = false := by
  intro t member same
  have empty := latest_eq_none.mp none
  have out := List.filter_eq_nil_iff.mp empty t member
  simpa [same] using out

/-- The events, then one change of the tables. -/
theorem Confined.commit (confined : Confined w w') (history : w'.history = w.history)
    (step : ∀ v : World, v.store = w.store → Plants v { v with store := w'.store }) :
    Relation.ReflTransGen Plants w w' := by
  obtain ⟨memory, ⟨events, audit⟩, minted⟩ := confined
  refine ((Confined.events events w).tail (step _ rfl)).tail ?_
  exact .quiet ⟨rfl, audit.symm, memory, history, minted⟩

/-- How the atomic part of a spawn ended. -/
def Committed (st : Store) (history : List Mark) (caller cellName key : String) :
    String ⊕ CellThread → World → Prop
  | .inl threadId, w => w.store = st ∧ w.history = history ∧
    ∃ row ∈ st.spawnRequests, row.is caller cellName key = true ∧ row.crewdThreadId = threadId
  | .inr thread, w => w.history = history ∧ ∃ locks row job, Spawns st row thread job ∧
    row.is caller cellName key = true ∧ w.store = st.spawn locks row thread job

theorem Committed.plants {o : String ⊕ CellThread}
    (committed : Committed w.store w.history caller cellName key o w') (confined : Confined w w') :
    Relation.ReflTransGen Plants w w' := by
  cases o with
  | inl threadId =>
    obtain ⟨store, history, _⟩ := committed
    refine confined.commit history fun v same => .quiet ⟨?_, rfl, rfl, rfl, Nat.le_refl _⟩
    exact store.trans same.symm
  | inr thread =>
    obtain ⟨history, locks, row, job, spawns, _, store⟩ := committed
    refine confined.commit history fun v same => ?_
    rw [store, ← same]
    exact .spawned locks row thread job (same ▸ spawns)

theorem outcome_of_created (o : Committed w.store w.history caller cellName key (.inr thread) w') :
    SpawnOutcome w caller cellName key (thread, false) w' := by
  obtain ⟨history, locks, row, job, spawns, keyed, store⟩ := o
  refine ⟨history, ⟨row, ?_, keyed, spawns.rowThread⟩, fun _ => ⟨?_, ?_⟩, fun h => by cases h⟩
  · rw [store]; exact List.mem_append_right _ List.mem_cons_self
  · have same := of_decide_eq_true keyed
    obtain ⟨rfl, rfl, rfl⟩ := same
    exact spawns.request
  · simp [store, Store.rows, Store.spawn]

variable [Platform]

theorem spawnIdempotent_meets {launch : Launch} {w : World} :
    Meets Plants (·.At w.snapshot)
      (spawnIdempotent caller cellName key payload launch queueDepthDefault)
      (fun r w' => SpawnOutcome w caller cellName key r w') := by
  have quiet := Confined.ofQuiet
  have tables : ∀ (w : World) (st : Store), Confined w { w with store := st } := fun _ _ => .tables
  refine meets_checked fun validName => meets_checked fun validKey => ?_
  refine (meets_mayFail Plants.ofQuiet).bind fun _ => Meets.bind
    (Q := Committed w.store w.history caller cellName key) ?_ fun o => ?_
  · refine meets_atomically (T := Confined) (Q := Committed w.store w.history caller cellName key) ?_
      (fun v v' o here path committed => ⟨?_, committed⟩) fun v v' _ path => (Confined.path path).rollback
    swap
    · have store : v.store = w.store := here.store
      have history : v.history = w.history := here.history
      exact Committed.plants (by rw [store, history]; exact committed) (Confined.path path)
    refine (meets_query quiet _).bind fun row => meets_from fun _ ⟨here, found⟩ => ⟨_, here, ?_⟩
    cases row with
    | some row =>
      refine (meets_mayFail quiet).bind fun _ => Meets.pure fun v here => ⟨here.store, here.history, ?_⟩
      refine ⟨row, List.mem_of_find?_eq_some found.symm, ?_, rfl⟩
      simpa using List.find?_some found.symm
    | none =>
      have unbound : ∀ r ∈ w.store.spawnRequests, r.is caller cellName key = false := by
        simpa [World.snapshot] using found.symm
      refine (meets_append quiet fun _ _ => ⟨rfl, List.prefix_append _ _, Nat.le_refl _⟩).bind
        fun logged => ?_
      cases logged with
      | error e => exact Meets.throw
      | ok u =>
        refine meets_from fun _ h => ⟨_, h.1 rfl, ?_⟩
        refine (meets_execute quiet fun v _ => tables v _).bind fun _ => meets_from fun _ here => ?_
        let locks := if w.store.cellLocks.contains cellName then w.store.cellLocks
          else w.store.cellLocks ++ [cellName]
        let locked (minted : Nat) (requests : List SpawnRow) (threads : List CellThread) : Snap :=
          { w.snapshot with
            store := { w.store with
              cellLocks := locks
              spawnRequests := w.store.spawnRequests ++ requests
              threads := w.store.threads ++ threads }
            audit := w.audit ++ [⟨"cell_spawn_requested", none, some caller, some cellName, "ok",
              some (.obj [("caller", .str caller), ("cell", .str cellName),
                ("idempotency_key", .str key), ("engine", .str launch.engine.asStr)])⟩]
            minted := minted }
        refine ⟨locked w.minted [] [], by simpa [locked, locks, World.snapshot] using here, ?_⟩
        refine (meets_query quiet _).bind fun present => meets_from fun _ ⟨here, _⟩ => ⟨_, here, ?_⟩
        refine Meets.ite (fun _ => Meets.throw) fun _ => ?_
        refine (meets_query quiet _).bind fun active => meets_from fun _ ⟨here, busy⟩ => ⟨_, here, ?_⟩
        refine Meets.ite (fun _ => Meets.throw) fun free => ?_
        refine (meets_newUuidv7 quiet).bind fun threadId => meets_from fun _ ⟨n, _, _, here⟩ =>
          ⟨_, here, ?_⟩
        refine (Silent.nowRfc3339.meets quiet).bind fun time => ?_
        refine (meets_insertInto quiet fun v _ _ => tables v _).bind fun _ => ?_
        refine meets_from fun _ ⟨_, here⟩ => ⟨locked (n + 1) [⟨caller, cellName, key, threadId, time⟩] [],
          by simpa [locked] using here, ?_⟩
        refine (meets_insertInto quiet fun v _ _ => tables v _).bind fun _ => ?_
        refine meets_from fun _ ⟨fresh, here⟩ => ⟨locked (n + 1)
          [⟨caller, cellName, key, threadId, time⟩] [⟨threadId, cellName, launch.engine, launch.model,
            launch.profile, none, none, none, none, launch.cwd, launch.worktreePath, .spawning, 0,
            caller, key, time, time⟩], by simpa [locked] using here, ?_⟩
        refine (jobEnqueueInner_meets quiet fun v _ _ _ => tables v _).bind fun job => ?_
        refine meets_from fun _ ⟨added, m, _, here⟩ => ⟨_, here, (meets_mayFail quiet).bind fun _ =>
          Meets.pure fun v here => ?_⟩
        refine ⟨here.history, locks, ⟨caller, cellName, key, threadId, time⟩, job, ?_, ?_, here.store⟩
        · exact {
            valid := ⟨validName, validKey⟩
            request := unbound
            free := inactive_of_none (by simpa [locked, busy, Store.threadActiveForCell] using free)
            threadNew := by simpa [locked] using fresh
            enqueues := ⟨added.enqueues.queued, added.enqueues.fresh, added.enqueues.last,
              added.enqueues.room⟩
            state := rfl
            rowThread := rfl
            rowCell := rfl
            jobThread := added.thread
            jobCell := added.cell
            unattached := rfl }
        · simp [SpawnRow.is]
  · cases o with
    | inr thread => exact Meets.pure fun _ h => outcome_of_created h
    | inl threadId =>
      apply meets_from
      rintro v ⟨store, history, row, member, keyed, named⟩
      refine ⟨_, v.at_snapshot, (meets_query Plants.ofQuiet _).bind fun thread => ?_⟩
      cases thread with
      | none => exact Meets.throw
      | some thread =>
        apply Meets.pure
        rintro v' ⟨here, found⟩
        have same : v'.store = w.store := here.store.trans store
        refine ⟨here.history.trans history, ⟨row, by rw [same]; exact member, keyed, ?_⟩,
          fun h => (by cases h), fun _ => by rw [same]⟩
        exact named.trans (thread_of_find found.symm).2.symm

/-- The recorded call is this one. -/
structure Spawned.Of (call : Spawned) (caller key : String) (target : Target)
    (r : CellThread × Bool) : Prop where
  caller : call.caller = caller
  key : call.idempotencyKey = key
  target : call.target = target
  thread : call.crewdThreadId = r.1.crewdThreadId
  replayed : call.replayed = r.2

/-- The call is recorded with what it did. -/
theorem spawnAndRecord_meets {task : Nat} {target : Target} {launch : Launch} {w : World}
    (good : Good w) :
    Meets Calm (·.At w.snapshot) (spawnAndRecord task caller target key payload launch)
      (fun r w' => ∃ call v, w' = { v with history := .spawned task call :: v.history } ∧
        call.Of caller key target r ∧ SpawnOutcome w caller target.cellName key r v) := by
  refine Meets.bind (Q := fun before v => before = w.store.rows ∧ v.At w.snapshot)
    (Meets.look (fun _ => rfl) fun _ here => ⟨by rw [here.store]; rfl, here⟩) fun before => ?_
  refine Meets.bind (Q := fun r v => before = w.store.rows ∧
    SpawnOutcome w caller target.cellName key r v) ?_ fun r => ?_
  · refine meets_from fun v ⟨same, here⟩ => ⟨_, here, ?_⟩
    exact (spawnIdempotent_meets.mono fun _ _ step => step.calm).weaken (fun _ h => h)
      fun _ _ h => ⟨same, h⟩
  obtain ⟨thread, replayed⟩ := r
  refine Meets.bind (Q := fun after v => before = w.store.rows ∧ after = v.store.rows ∧
    SpawnOutcome w caller target.cellName key (thread, replayed) v)
    (Meets.look (fun _ => rfl) fun _ h => ⟨h.1, rfl, h.2⟩) fun after => ?_
  refine Meets.bind (Meets.step (fun v h => ?_) fun v h =>
    ⟨_, v, rfl, ⟨rfl, rfl, rfl, rfl, rfl⟩, h.2.2⟩) fun _ => Meets.pure fun _ h => h
  obtain ⟨rfl, rfl, outcome⟩ := h
  refine .recorded task _ ⟨outcome.row, fun created => ?_, fun again => ?_⟩
  · obtain ⟨unbound, rows⟩ := outcome.created created
    refine ⟨by simp [rows], by simp [rows], fun other call marked same => ?_⟩
    rw [outcome.history] at marked
    obtain ⟨row, member, keyed, _⟩ := good.2.1 other call marked
    have clash := unbound row member
    rw [same.1, same.2.1, same.2.2] at keyed
    exact absurd keyed (by simp [clash])
  · simp [outcome.replayed again]

end Spawn

section Handlers
variable [Platform] {α : Type} {task : Nat}

omit [Platform] in
/-- Facts that are no facts about the state are stable. -/
theorem stable_const {fact : Prop} : Stable (others Steps self) fun _ => fact := fun _ _ _ h => h

/-- What a request says about the target of its spawn. -/
def Targets (p : CellSpawnParams) : Target → Prop
  | .named c => p.cell = some c ∧ ¬ ['~'] <+: c.toList
  | .ephemeral _ => True

/-- The answer is that of a recorded call for the request. -/
def SpawnAnswered (task : Nat) (caller : String) (params : Params CellSpawnParams)
    (threadId : String) (replayed : Bool) (w : World) : Prop :=
  ∃ p call, params.parsed = .ok p ∧ Mark.spawned task call ∈ w.history ∧ call.caller = caller ∧
    call.idempotencyKey = p.idempotencyKey ∧ Targets p call.target ∧
    call.crewdThreadId = threadId ∧ call.replayed = replayed

omit [Platform] in
theorem SpawnAnswered.grow {params : Params CellSpawnParams} {threadId : String} {replayed : Bool}
    (answer : SpawnAnswered task caller params threadId replayed w) (grows : Grows w w') :
    SpawnAnswered task caller params threadId replayed w' := by
  obtain ⟨p, call, parsed, marked, rest⟩ := answer
  exact ⟨p, call, parsed, grows.history.subset marked, rest⟩

omit [Platform] in
theorem checkCapability_silent (caller : String) (cap : Capability) :
    Silent (checkCapability caller cap) := by
  refine .bind (.readMemory _) fun acl => ?_
  cases acl.check caller cap with
  | ok u => exact .pure u
  | error e => exact .throw e

omit [Platform] in
theorem lookupCell_follows (name : Option String) :
    Follows self (fun _ => True) (lookupCell name)
      (fun found _ => ∀ d, found = some d → name = some d.name) := by
  cases name with
  | none => exact Runs.pure fun _ _ _ _ h => by cases h
  | some c =>
    refine Runs.locked Statement.ofQuiet (fun _ => stable_const) fun w _ _ => ?_
    refine (meets_query Statement.ofQuiet _).weaken (fun _ h => h) fun found _ h d same => ?_
    have stored := h.2.symm.trans same
    rw [show d.name = c by simpa using List.find?_some stored]

omit [Platform] in
/-- A registered cell is the one that the request names. -/
theorem targets_named {p : CellSpawnParams} {named : Option CellDef} {d : CellDef}
    (allowed : rejectReservedName p.cell = .ok ()) (known : ∀ d, named = some d → p.cell = some d.name)
    {reqEngine : Option EngineKind}
    (resolved : resolveSpawnTarget named reqEngine p.model p.profile p.cwd = .ok (.named d)) :
    Targets p (.named d.name) := by
  have found : named = some d := by
    unfold resolveSpawnTarget at resolved
    split at resolved
    · split at resolved <;> cases resolved
      rfl
    · split at resolved <;> cases resolved
  have cell := known d found
  refine ⟨cell, fun reserved => ?_⟩
  simp [rejectReservedName, cell, reserved] at allowed

theorem chooseTarget_follows {p : CellSpawnParams} {named : Option CellDef} {target : SpawnTarget}
    (allowed : rejectReservedName p.cell = .ok ()) (known : ∀ d, named = some d → p.cell = some d.name)
    {reqEngine : Option EngineKind}
    (resolved : resolveSpawnTarget named reqEngine p.model p.profile p.cwd = .ok target) :
    Follows self (fun _ => True) (chooseTarget p.worktree target) (fun r _ => Targets p r.1) := by
  cases target with
  | ephemeral engine model profile cwd =>
    refine Runs.bind (Plain.silent .newUuidv7) fun uuid => Runs.pure fun _ _ _ => trivial
  | named d => exact Runs.pure fun _ _ _ => targets_named allowed known resolved

theorem handleSpawn_follows (caller : String) (params : Params CellSpawnParams) :
    Follows (.task task) (fun _ => True) (handleSpawn task caller params) (fun answer w =>
      ∃ threadId replayed, answer = .spawned threadId replayed ∧
        SpawnAnswered task caller params threadId replayed w) := by
  refine Runs.raised fun _ _ => Runs.raised fun p parsed => ?_
  refine Runs.bind (Plain.silent (checkCapability_silent _ _)) fun _ => ?_
  refine Runs.raised fun _ _ => Runs.raised fun _ allowed => ?_
  refine Runs.bind (lookupCell_follows p.cell) fun named => ?_
  refine Runs.weaken (fun _ _ known => ⟨known, trivial⟩) (Runs.assume (P := fun _ => True) fun known => ?_)
  refine Runs.raised fun reqEngine _ => Runs.raised fun target resolved => ?_
  refine Runs.bind (chooseTarget_follows allowed known resolved) fun chosen => ?_
  obtain ⟨target, launch⟩ := chosen
  refine Runs.bind (Q := fun r w => SpawnAnswered task caller params r.1.crewdThreadId r.2 w)
    (Runs.locked Statement.ofQuiet (fun r => ?_) fun w good aimed => ?_) fun r =>
      Runs.pure fun w _ h => ⟨_, _, rfl, h⟩
  · rintro w w' ⟨_, _, _, steps⟩ h
    exact h.grow steps.grows
  refine ((spawnAndRecord_meets good).mono fun _ _ => .calm).weaken (fun _ h => h) fun r w' h => ?_
  obtain ⟨call, v, rfl, is, _⟩ := h
  exact ⟨p, call, parsed_of_ok parsed, List.mem_cons_self, is.caller, is.key, is.target ▸ aimed,
    is.thread, is.replayed⟩

/-- The section of `cell_send_task` that adds the job. -/
def enqueueOn (p : CellSendTaskParams) : Act CellJob := do
  let thread ← threadOrUnknown p.crewdThreadId
  if thread.state.terminal ∧ thread.engineKind = .pi then
    throw (.threadNotResumable s!"pi v0 has no session resume for thread {p.crewdThreadId}")
  else jobEnqueue p.crewdThreadId thread.cellName p.message queueDepthDefault

theorem enqueueOn_meets (p : CellSendTaskParams) {w : World} :
    Meets Calm (·.At w.snapshot) (enqueueOn p) (fun job w' => ∃ cell,
      Enqueued w.store p.crewdThreadId cell p.message job ∧
        w'.store.jobs = w.store.jobs ++ [job]) := by
  refine Meets.bind (Q := fun thread v => v.At w.snapshot ∧
    HasThread w.store p.crewdThreadId thread.cellName) ?_ fun thread => ?_
  · refine (meets_query Calm.ofQuiet _).bind fun row => ?_
    cases row with
    | none => exact Meets.throw
    | some thread =>
      refine Meets.pure fun v ⟨here, found⟩ => ⟨here, thread, ?_⟩
      exact ⟨(thread_of_find found.symm).1, (thread_of_find found.symm).2, rfl⟩
  · refine Meets.ite (fun _ => Meets.throw) fun _ => ?_
    refine meets_from fun v ⟨here, linked⟩ => ⟨_, here, ?_⟩
    exact (jobEnqueue_meets linked).weaken (fun _ h => h) fun _ _ added => ⟨_, added⟩

theorem handleSendTask_plain (caller : String) (params : Params CellSendTaskParams) :
    Plain self (handleSendTask caller params) := by
  refine Runs.raised fun _ _ => Runs.raised fun p _ => ?_
  refine Plain.bind (.silent (checkCapability_silent _ _)) fun _ => ?_
  refine Plain.bind (.locked fun w _ => ?_) fun job => .pure
  exact ((enqueueOn_meets p).mono fun _ _ => .calm).weaken (fun _ h => h) fun _ _ _ => trivial

omit [Platform] in
/-- The jobs are cancelled one by one, and stay active until it is their turn. -/
theorem cancelAll_meets {jobs : List CellJob} (once : (jobs.map (·.jobId)).Nodup)
    (active : ∀ listed ∈ jobs, ∀ j ∈ now.store.jobs, j.jobId = listed.jobId →
      j.state.active = true) :
    Meets Calm (·.At now) (jobs.forM fun j => jobCancel j.jobId) (fun _ _ => True) := by
  induction jobs generalizing now with
  | nil => exact Meets.pure fun _ _ => trivial
  | cons job rest ih =>
    obtain ⟨absent, once⟩ := List.nodup_cons.mp once
    refine Meets.bind (jobSetState_meets Calm.ofQuiet fun w row here found => ?_) fun _ =>
      meets_from fun w ⟨row, found, here⟩ => ⟨_, here, ih once fun listed member j stored same => ?_⟩
    · obtain ⟨stored, named⟩ := job_of_find found
      refine .cancelled row ?_ (active job List.mem_cons_self row stored named)
      rw [here.store]
      exact stored
    · obtain ⟨old, known, rfl⟩ := mem_updateJob.mp stored
      split at same
      · rename_i here
        have named : listed.jobId = job.jobId := by
          rw [← same, ← (job_of_find found).2]
          exact here
        exact absurd (List.mem_map.mpr ⟨listed, member, named⟩) absent
      · rename_i apart
        rw [if_neg apart]
        exact active listed (List.mem_cons_of_mem _ member) old known same

omit [Platform] in
theorem jobsForThread_active {w : World} (inv : Inv w) {threadId : String} :
    (((w.store.jobsForThread threadId).filter (·.state.active)).map (·.jobId)).Nodup ∧
      ∀ listed ∈ (w.store.jobsForThread threadId).filter (·.state.active), ∀ j ∈ w.store.jobs,
        j.jobId = listed.jobId → j.state.active = true := by
  have known : ∀ listed ∈ (w.store.jobsForThread threadId).filter (·.state.active),
      listed ∈ w.store.jobs ∧ listed.state.active = true := by
    intro listed member
    obtain ⟨ofThread, active⟩ := List.mem_filter.mp member
    exact ⟨(List.mem_filter.mp (List.mem_insertionSort _ |>.mp ofThread)).1, active⟩
  constructor
  · have perm : ((w.store.jobsForThread threadId).map (·.jobId)).Perm
        ((w.store.jobs.filter (·.crewdThreadId = threadId)).map (·.jobId)) :=
      (List.perm_insertionSort _ _).map _
    have once := perm.nodup_iff.mpr (inv.jobsOnce.sublist (List.filter_sublist.map _))
    exact once.sublist (List.filter_sublist.map _)
  · intro listed member j stored same
    obtain ⟨present, active⟩ := known listed member
    rw [inv.job_unique stored present same]
    exact active

omit [Platform] in
theorem cancelThread_plain (caller threadId : String) :
    Plain self (locked (cancelThread caller threadId)) := by
  refine .locked fun w good => Meets.mono (fun _ _ => .calm) ?_
  refine Meets.bind (Q := fun _ v => v.At w.snapshot) ?_ fun thread => ?_
  · refine (meets_query Calm.ofQuiet _).bind fun row => ?_
    cases row with
    | none => exact Meets.throw
    | some thread => exact Meets.pure fun _ here => here.1
  refine Meets.bind (Q := fun _ v => v.At w.snapshot) (Meets.ite (fun _ => Meets.pure fun _ h => h)
    fun _ => (checkCapability_silent _ _).meets Calm.ofQuiet) fun _ => ?_
  refine (meets_query Calm.ofQuiet _).bind fun jobs => meets_from fun _ ⟨here, found⟩ => ⟨_, here, ?_⟩
  subst found
  obtain ⟨once, active⟩ := jobsForThread_active good.1
  refine (cancelAll_meets once active).bind fun _ => Meets.bind (Q := fun _ _ => True) ?_ fun _ =>
    Meets.pure fun _ _ => trivial
  exact Calmly.ite (fun _ => .threadTransition (by decide)) fun _ => .pure _

omit [Platform] in
theorem handleCancel_plain (caller : String) (params : Params CellCancelParams) :
    Plain self (handleCancel caller params) := by
  refine Runs.raised fun _ _ => Runs.raised fun p _ => ?_
  refine Plain.bind (.silent (checkCapability_silent _ _)) fun _ => ?_
  refine Plain.bind (cancelThread_plain _ _) fun cancelled => ?_
  refine Plain.bind (.calmly .audit) fun _ => Plain.bind (.calmly ?_) fun _ => .pure
  exact Meets.step (fun _ _ => .cancels _) fun _ _ => trivial

end Handlers
end Crewd.Fabric
