import Crewd.Fabric.Deeds

/-! Who enqueues jobs: of the sections of all tool calls, of the scheduler and of a
restart, only that of `cell_send_task` adds a job to a thread that exists. -/
namespace Crewd.Fabric
open Autocommit Concurrent Table

/-- Threads stay, and a new job belongs to the recipient or to a new thread. -/
structure Enlists (recipient : Option String) (w w' : World) : Prop where
  threads : ∀ t ∈ w.store.threads, ∃ t' ∈ w'.store.threads, t'.crewdThreadId = t.crewdThreadId
  jobs : ∀ j ∈ w'.store.jobs, (∃ old ∈ w.store.jobs, old.fixed = j.fixed) ∨
    recipient = some j.crewdThreadId ∨ ∀ t ∈ w.store.threads, t.crewdThreadId ≠ j.crewdThreadId

variable {α β : Type} {recipient : Option String} {w w' w'' : World}

namespace Enlists

theorem tables (threads : w'.store.threads = w.store.threads) (jobs : w'.store.jobs = w.store.jobs) :
    Enlists recipient w w' := by
  constructor
  · intro t member
    exact ⟨t, threads ▸ member, rfl⟩
  · intro j member
    exact .inl ⟨j, jobs ▸ member, rfl⟩

theorem same (store : w'.store = w.store) : Enlists recipient w w' :=
  .tables (congrArg Store.threads store) (congrArg Store.jobs store)

theorem trans (first : Enlists recipient w w') (second : Enlists recipient w' w'') :
    Enlists recipient w w'' := by
  constructor
  · intro t member
    obtain ⟨t', member', here⟩ := first.threads t member
    obtain ⟨t'', member'', here'⟩ := second.threads t' member'
    exact ⟨t'', member'', here'.trans here⟩
  · intro j member
    rcases second.jobs j member with ⟨j', member', here⟩ | own | new
    · obtain ⟨_, sameThread, _⟩ := CellJob.fixed_inj here
      rw [← sameThread]
      exact (first.jobs j' member').imp_left fun ⟨old, stored, before⟩ =>
        ⟨old, stored, before.trans here⟩
    · exact .inr (.inl own)
    · refine .inr (.inr fun t known named => ?_)
      obtain ⟨t', known', here⟩ := first.threads t known
      exact new t' known' (here.trans named)

/-- An update of the columns of one job that change. -/
theorem updatedJob {id : String} {f : CellJob → CellJob} (keeps : ∀ j, (f j).fixed = j.fixed)
    (store : w'.store = w.store.updateJob id f) : Enlists recipient w w' := by
  constructor
  · intro t member
    exact ⟨t, by rw [store]; exact member, rfl⟩
  · intro j member
    rw [store] at member
    obtain ⟨old, stored, same⟩ := (fixed_updateJob keeps).2 j member
    exact .inl ⟨old, stored, same.symm⟩

theorem updatedThread {id : String} {f : CellThread → CellThread}
    (keeps : ∀ t, (f t).crewdThreadId = t.crewdThreadId)
    (store : w'.store = w.store.updateThread id f) : Enlists recipient w w' := by
  constructor
  · intro t member
    rw [store]
    refine ⟨_, mem_updateThread.mpr ⟨t, member, rfl⟩, ?_⟩
    split
    · exact keeps t
    · rfl
  · intro j member
    rw [store] at member
    exact .inl ⟨j, member, rfl⟩

end Enlists

instance : Admits (Enlists recipient) where
  deed deed := by
    cases deed with
    | quiet same => exact .same same.store
    | event draft => exact .same rfl
    | job id f marks keeps mild => exact .updatedJob keeps rfl
    | thread id f marks keeps mild =>
      exact .updatedThread (fun t => (CellThread.fixed_inj (keeps t)).1) rfl
    | line row event => exact .tables rfl rfl
    | schedule f marks lands mild => exact .same rfl
    | cancels c => exact .same rfl
  trans := .trans
  undone _ := .same rfl

instance : Drains (Enlists recipient) where
  poll turn w := .same (poll_leaves turn w).1
  apply _ _ _ := .same rfl

section Calls
variable {R : World → World → Prop} [Admits R]

/-- A turn is started without a change of the tables. -/
theorem startTurn_keeping (tables : ∀ w w' : World, w'.store = w.store → R w w')
    {cell threadId jobId : String} {nowNanos : Nat} :
    Keeping R (startTurn cell threadId jobId nowNanos) := by
  refine .bind (.silent (.readMemory _)) fun engine => .ite ?_ (.throw _)
  refine .bind (.silent (.readOutside _)) fun result => .bind (fun _ => tables _ _ rfl) fun _ => ?_
  cases result with
  | ok u => exact .pure _
  | error e => exact .throw _

theorem checkCapability_keeping (caller : String) (cap : Capability) :
    Keeping R (checkCapability caller cap) := .silent (checkCapability_silent _ _)

theorem threadOrUnknown_keeping (id : String) : Keeping R (threadOrUnknown id) := by
  refine .bind (.query _) fun found => ?_
  cases found with
  | none => exact .throw _
  | some thread => exact .pure _

theorem cancelThread_keeping (caller threadId : String) : Keeping R (cancelThread caller threadId) := by
  refine .bind (threadOrUnknown_keeping _) fun thread => ?_
  refine .bind (.ite (.pure _) (checkCapability_keeping _ _)) fun _ => ?_
  refine .bind (.query _) fun jobs => .bind (.forM fun _ => jobSetState_keeping _) fun _ => ?_
  exact .bind (.ite (threadTransition_keeping _) (.pure _)) fun _ => .pure _

theorem handleCancel_throughout (caller : String) (params : Params CellCancelParams) :
    Throughout R (handleCancel caller params) := by
  refine .bind .raise fun _ => .bind .raise fun p => .bind (.locked (checkCapability_keeping _ _))
    fun _ => .bind (.locked (cancelThread_keeping _ _)) fun cancelled => ?_
  exact .bind (.locked .audit) fun _ => .bind (.locked (.step fun _ => .cancels _)) fun _ => .pure

theorem Plants.enlists {w w' : World} (plants : Plants w w') : Enlists recipient w w' := by
  cases plants with
  | quiet same => exact .same same.store
  | event draft => exact .same rfl
  | spawned locks row thread job spawns =>
    constructor
    · intro t member
      exact ⟨t, List.mem_append_left _ member, rfl⟩
    · intro j member
      rcases List.mem_append.mp member with old | new
      · exact .inl ⟨j, old, rfl⟩
      · obtain rfl := List.mem_singleton.mp new
        refine .inr (.inr fun t known => ?_)
        rw [spawns.jobThread]
        exact spawns.threadNew t known

theorem Plants.path_enlists (path : Relation.ReflTransGen Plants w w') : Enlists recipient w w' := by
  induction path with
  | refl => exact .same rfl
  | tail _ last ih => exact ih.trans last.enlists

variable [Platform]

theorem spawnAndRecord_enlists (task : Nat) (caller : String) (target : Target) (key payload : String)
    (launch : Launch) :
    Keeping (Enlists recipient) (spawnAndRecord task caller target key payload launch) := by
  refine .bind (.silent (.readStore _)) fun before => .bind (fun w => ?_) fun spawned =>
    .bind (.silent (.readStore _)) fun after => .bind (fun _ => .same rfl) fun _ => .pure _
  have met : Meets Plants (·.At w.snapshot)
      (spawnIdempotent caller target.cellName key payload launch queueDepthDefault) _ :=
    spawnIdempotent_meets
  exact Plants.path_enlists (met w w.at_snapshot).1

theorem handleSpawn_enlists (task : Nat) (caller : String) (params : Params CellSpawnParams) :
    Throughout (Enlists recipient) (handleSpawn task caller params) := by
  refine .bind .raise fun _ => .bind .raise fun p => .bind (.locked (checkCapability_keeping _ _))
    fun _ => .bind .raise fun _ => .bind .raise fun _ => .bind ?_ fun named => .bind .raise
      fun reqEngine => .bind .raise fun resolved => .bind ?_ fun chosen =>
        .bind (.locked (spawnAndRecord_enlists _ _ _ _ _ _)) fun _ => .pure
  · cases p.cell with
    | none => exact .pure
    | some c => exact .locked (.query _)
  · cases resolved with
    | named d => exact .pure
    | ephemeral engine model profile cwd =>
      exact .bind (.locked (.silent .newUuidv7)) fun uuid => .pure

/-- The new job belongs to the thread that the request names. -/
theorem jobEnqueue_enlists (threadId cell payload : String) (depthCap : Nat) :
    Keeping (Enlists (some threadId)) (jobEnqueue threadId cell payload depthCap) := by
  refine .transaction (.bind (.query _) fun count => .ite (.throw _) (.bind (.query _) fun next =>
    .bind (.silent .newUuidv7) fun id => .bind (.silent .nowRfc3339) fun time => ?_))
  refine .bind (.insertInto fun w => ?_) fun _ => .pure _
  constructor
  · intro t member
    exact ⟨t, member, rfl⟩
  · intro j member
    rcases List.mem_append.mp member with old | new
    · exact .inl ⟨j, old, rfl⟩
    · obtain rfl := List.mem_singleton.mp new
      exact .inr (.inl rfl)

/-- The thread that a request gives a job to. -/
def Request.assignee : Request → Option String
  | .sendTask _ params => params.parsed.toOption.map (·.crewdThreadId)
  | .spawn _ _ | .cancel _ _ => none

theorem handleSendTask_enlists (caller : String) (params : Params CellSendTaskParams) :
    Throughout (Enlists (Request.sendTask caller params).assignee) (handleSendTask caller params) := by
  refine .bind .raise fun _ visits => ?_
  apply Goes.raised
  · exact fun _ _ => trivial
  · intro p parsed
    have assigned : (Request.sendTask caller params).assignee = some p.crewdThreadId := by
      rw [Request.assignee, parsed_of_ok parsed]
      rfl
    rw [assigned]
    refine Throughout.bind (.locked (checkCapability_keeping _ _)) (fun _ => .bind (.locked ?_)
      fun job => .pure) visits
    exact .bind (threadOrUnknown_keeping _) fun thread => .ite (.throw _) (jobEnqueue_enlists _ _ _ _)

theorem program_enlists (task : Nat) (request : Request) :
    (service.program task request).Along (fun _ _ => Enlists request.assignee) (fun _ _ => True) [] := by
  have employs : Throughout (Enlists request.assignee) (handle task request) := by
    cases request with
    | spawn caller params => exact handleSpawn_enlists task caller params
    | sendTask caller params => exact handleSendTask_enlists caller params
    | cancel caller params => exact handleCancel_throughout caller params
  exact Process.Along.weaken (fun _ _ _ _ enlists => enlists) (fun _ _ _ => trivial) (employs [])

theorem loop_enlists : System.Tends (Enlists none) service.loop :=
  Process.Along.bind (tick_throughout (fun _ _ _ _ => startTurn_keeping fun _ _ => .same) []) fun _ _ _ => trivial

omit [Platform] in
theorem happens_enlists (event : Event) (w w' : World) (happened : happens event w = some w') :
    Enlists none w w' := by
  cases event with
  | emitted cell turn event =>
    simp only [happens] at happened
    split at happened <;> cases happened
    exact .same rfl
  | identified cell sessionId =>
    simp only [happens] at happened
    split at happened <;> cases happened
    exact .same rfl
  | cellRegistered d =>
    simp only [happens] at happened
    split at happened <;> cases happened
    exact .tables rfl rfl
  | cellUpdated d =>
    simp only [happens] at happened
    split at happened <;> cases happened
    exact .tables rfl rfl
  | audited draft =>
    simp only [happens] at happened
    split at happened <;> cases happened
    exact .same rfl
  | died cell | minted =>
    cases happened
    exact .same rfl

theorem restart_enlists (i : Input Outside) (w : World) :
    Enlists none w (service.restart i w).1 := by
  have installed : Enlists none w ({ w.install i with
      memory := .new (i.outside.start.getD .empty), history := .restarted :: w.history } : World) :=
    .same rfl
  exact installed.trans (bootRecovery_keeping _)

end Calls

section Runs
variable [Platform] {c d u v : FabricConfig}

/-- A move of the fabric gives a job to a thread that exists only as a section of a
`cell_send_task` to it. -/
theorem move_enlists (reached : service.Reaches w u) (stepped : service.next u action = some v) :
    Enlists none u.shared v.shared ∨ ∃ task i request code, action = .run task i ∧
      u.pool[task]? = some (request, some code) ∧ Enlists request.assignee u.shared v.shared := by
  rcases System.move_of_reaches program_enlists loop_enlists happens_enlists reached stepped with
    ⟨task, i, request, code, same, found, enlists⟩ | same | aside | ⟨i, _, crashed⟩
  · exact .inr ⟨task, i, request, code, same, found, enlists⟩
  · exact .inl (.same (congrArg Crewd.World.store same))
  · exact .inl aside
  · rw [show v.shared = _ from crashed]
    exact .inl (restart_enlists i u.shared)

/-- Between the two states a section of a `cell_send_task` to the thread of the job
enqueued it. -/
def FollowedUp (c d : FabricConfig) (j : CellJob) : Prop :=
  ∃ u v task i caller params p code, service.Leads c u ∧ service.next u (.run task i) = some v ∧
    service.Leads v d ∧ u.pool[task]? = some (.sendTask caller params, some code) ∧
    params.parsed = .ok p ∧ p.crewdThreadId = j.crewdThreadId ∧
    (∀ old ∈ u.shared.store.jobs, old.fixed ≠ j.fixed) ∧
    ∃ added ∈ v.shared.store.jobs, added.fixed = j.fixed

omit [Platform] in
theorem fixed_thread {j j' : CellJob} (same : j.fixed = j'.fixed) :
    j.crewdThreadId = j'.crewdThreadId := (CellJob.fixed_inj same).2.1

theorem FollowedUp.same {j j' : CellJob} (followed : FollowedUp c d j) (same : j.fixed = j'.fixed) :
    FollowedUp c d j' := by
  unfold FollowedUp at followed ⊢
  rw [← same, ← fixed_thread same]
  exact followed

theorem FollowedUp.next (followed : FollowedUp c u j) (stepped : service.next u action = some v) :
    FollowedUp c v j := by
  obtain ⟨a, b, task, i, caller, params, p, code, before, step, after, rest⟩ := followed
  exact ⟨a, b, task, i, caller, params, p, code, before, step, after.next stepped, rest⟩

omit [Platform] in
theorem sendTask_of_assignee {request : Request} {id : String} (named : request.assignee = some id) :
    ∃ caller params p, request = .sendTask caller params ∧ params.parsed = .ok p ∧
      p.crewdThreadId = id := by
  cases request with
  | sendTask caller params =>
    obtain ⟨p, parsed, named⟩ := Option.map_eq_some_iff.mp named
    refine ⟨caller, params, p, rfl, ?_, named⟩
    cases result : params.parsed with
    | error e => rw [result] at parsed; cases parsed
    | ok q => rw [result] at parsed; cases parsed; rfl
  | spawn caller params => cases named
  | cancel caller params => cases named

/-- A job of a thread that was there is as old, or was enqueued since by `cell_send_task`. -/
theorem followed_or_stored (reached : service.Reaches w c) (later : service.Leads c d)
    (known : t ∈ c.shared.store.threads) : (∃ t' ∈ d.shared.store.threads,
        t'.crewdThreadId = t.crewdThreadId) ∧
      ∀ j ∈ d.shared.store.jobs, j.crewdThreadId = t.crewdThreadId →
        (∃ old ∈ c.shared.store.jobs, old.fixed = j.fixed) ∨ FollowedUp c d j := by
  induction later with
  | refl => exact ⟨⟨t, known, rfl⟩, fun j stored _ => .inl ⟨j, stored, rfl⟩⟩
  | @next u action v before stepped ih =>
    obtain ⟨⟨t', known', same⟩, jobs⟩ := ih
    have older : ∀ j : CellJob, j.crewdThreadId = t.crewdThreadId →
        (∃ old ∈ u.shared.store.jobs, old.fixed = j.fixed) →
        (∃ old ∈ c.shared.store.jobs, old.fixed = j.fixed) ∨ FollowedUp c v j := by
      rintro j own ⟨old, stored, fixed⟩
      rcases jobs old stored ((fixed_thread fixed).trans own) with ⟨first, there, fixed'⟩ | followed
      · exact .inl ⟨first, there, fixed'.trans fixed⟩
      · exact .inr ((followed.same fixed).next stepped)
    rcases move_enlists (System.Leads.trans _ reached before) stepped with
      enlists | ⟨task, i, request, code, rfl, found, enlists⟩
    · obtain ⟨t'', known'', same'⟩ := enlists.threads t' known'
      refine ⟨⟨t'', known'', same'.trans same⟩, fun j stored own => ?_⟩
      rcases enlists.jobs j stored with old | named | new
      · exact older j own old
      · cases named
      · exact absurd (same.trans own.symm) (new t' known')
    · obtain ⟨t'', known'', same'⟩ := enlists.threads t' known'
      refine ⟨⟨t'', known'', same'.trans same⟩, fun j stored own => ?_⟩
      by_cases old : ∃ old ∈ u.shared.store.jobs, old.fixed = j.fixed
      · exact older j own old
      rcases enlists.jobs j stored with there | named | new
      · exact absurd there old
      · obtain ⟨caller, params, p, rfl, parsed, same⟩ := sendTask_of_assignee named
        refine .inr ⟨u, v, task, i, caller, params, p, code, before, stepped, .refl _, found, parsed,
          same, fun row there fixed => old ⟨row, there, fixed⟩, j, stored, rfl⟩
      · exact absurd (same.trans own.symm) (new t' known')

end Runs
end Crewd.Fabric
