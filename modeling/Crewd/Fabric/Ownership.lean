import Crewd.Fabric.Enlisting
import Crewd.Fabric.Soundness

/-! Whose rows a tool call changes. Threads belong to the principal that spawned them: whatever
fails halfway, a call changes no thread and no job of another principal's thread, unless its
caller holds `admin_registry` at that moment, and the threads it adds are its own. -/
namespace Crewd.Fabric
open Autocommit Concurrent Table

/-- The thread is open to the caller: it created the thread, or administers the registry. -/
def Owns (caller : String) (w : World) (id : String) : Prop :=
  ∃ t, w.store.thread id = some t ∧
    (t.createdByPrincipal = caller ∨ w.memory.acl.check caller .adminRegistry = .ok ())

section Rows
variable {caller : String} {mine : String → Prop} {st st' st'' : Store} {α β : Type}

/-- Only rows of these threads change, creators stay, and new threads are the caller's. -/
structure Spares (mine : String → Prop) (caller : String) (st st' : Store) : Prop where
  threads : ∀ t ∈ st.threads, ¬ mine t.crewdThreadId → t ∈ st'.threads
  jobs : ∀ j ∈ st.jobs, ¬ mine j.crewdThreadId → j ∈ st'.jobs
  created : ∀ t ∈ st'.threads, t.createdByPrincipal = caller ∨ ∃ old ∈ st.threads,
    old.crewdThreadId = t.crewdThreadId ∧ old.createdByPrincipal = t.createdByPrincipal

namespace Spares

theorem added (threads : ∀ t ∈ st.threads, t ∈ st'.threads) (jobs : ∀ j ∈ st.jobs, j ∈ st'.jobs)
    (created : ∀ t ∈ st'.threads, t.createdByPrincipal = caller ∨ t ∈ st.threads) :
    Spares mine caller st st' := by
  constructor
  · exact fun t stored _ => threads t stored
  · exact fun j stored _ => jobs j stored
  · intro t stored
    rcases created t stored with own | before
    · exact .inl own
    · exact .inr ⟨t, before, rfl, rfl⟩

theorem tables (threads : st'.threads = st.threads) (jobs : st'.jobs = st.jobs) :
    Spares mine caller st st' := by
  apply added
  · exact fun t stored => threads ▸ stored
  · exact fun j stored => jobs ▸ stored
  · exact fun t stored => .inr (threads ▸ stored)

theorem same (store : st' = st) : Spares mine caller st st' :=
  .tables (congrArg Store.threads store) (congrArg Store.jobs store)

theorem trans (first : Spares mine caller st st') (second : Spares mine caller st' st'') :
    Spares mine caller st st'' := by
  constructor
  · exact fun t stored other => second.threads t (first.threads t stored other) other
  · exact fun j stored other => second.jobs j (first.jobs j stored other) other
  · intro t stored
    rcases second.created t stored with own | ⟨old, before, id, creator⟩
    · exact .inl own
    · rcases first.created old before with own | ⟨older, there, id', creator'⟩
      · exact .inl (creator.symm.trans own)
      · exact .inr ⟨older, there, id'.trans id, creator'.trans creator⟩

/-- An update of the jobs that have this identifier, all of them among these threads. -/
theorem updatedJob {id : String} {f : CellJob → CellJob}
    (own : ∀ j ∈ st.jobs, j.jobId = id → mine j.crewdThreadId) :
    Spares mine caller st (st.updateJob id f) := by
  constructor
  · exact fun t stored _ => stored
  · intro j stored other
    rw [mem_updateJob]
    exact ⟨j, stored, (if_neg fun named => other (own j stored named)).symm⟩
  · exact fun t stored => .inr ⟨t, stored, rfl, rfl⟩

theorem updatedThread {id : String} {f : CellThread → CellThread} (own : mine id)
    (keeps : ∀ t, (f t).crewdThreadId = t.crewdThreadId ∧
      (f t).createdByPrincipal = t.createdByPrincipal) :
    Spares mine caller st (st.updateThread id f) := by
  constructor
  · intro t stored other
    rw [mem_updateThread]
    exact ⟨t, stored, (if_neg fun named => other (by rwa [named])).symm⟩
  · exact fun j stored _ => stored
  · intro t stored
    obtain ⟨old, before, rfl⟩ := mem_updateThread.mp stored
    right
    refine ⟨old, before, ?_⟩
    split
    · exact ⟨(keeps old).1.symm, (keeps old).2.symm⟩
    · exact ⟨rfl, rfl⟩

end Spares

/-- Every statement of the computation leaves the rows of other threads alone. -/
def Sparing (mine : String → Prop) (caller : String) (m : Act α) : Prop :=
  Meets (fun w w' : World => Spares mine caller w.store w'.store) (fun _ => True) m
    (fun _ _ => True)

theorem spares_of_path {w w' : World}
    (path : Relation.ReflTransGen (fun w w' : World => Spares mine caller w.store w'.store) w w') :
    Spares mine caller w.store w'.store := by
  induction path with
  | refl => exact .same rfl
  | tail _ last ih => exact ih.trans last

namespace Sparing
variable {m : Act α} {f : α → Act β}

theorem spares (sparing : Sparing mine caller m) (w : World) :
    Spares mine caller w.store (m.exec w).2.store := spares_of_path (sparing w trivial).1

theorem silent (silent : Silent m) : Sparing mine caller m :=
  silent.always fun _ _ quiet => .same quiet.store

theorem pure (a : α) : Sparing mine caller (Pure.pure a : Act α) := silent (.pure a)

theorem throw (e : BusError) : Sparing mine caller (MonadExcept.throw e : Act α) :=
  silent (.throw e)

theorem query (f : Store → α) : Sparing mine caller (query f) := silent (.query f)

theorem bind (first : Sparing mine caller m) (rest : ∀ a, Sparing mine caller (f a)) :
    Sparing mine caller (m >>= f) := Meets.bind first rest

theorem ite {c : Prop} [Decidable c] {a b : Act α} (yes : Sparing mine caller a)
    (no : Sparing mine caller b) : Sparing mine caller (if c then a else b) :=
  Meets.ite (fun _ => yes) fun _ => no

theorem execute {f : Store → Store} (moves : ∀ st, Spares mine caller st (f st)) :
    Sparing mine caller (execute f) :=
  bind (silent .mayFail) fun _ => Meets.step (fun w _ => moves w.store) fun _ _ => trivial

theorem insertInto {taken : Store → Bool} {constraint : String} {f : Store → Store}
    (moves : ∀ st, Spares mine caller st (f st)) :
    Sparing mine caller (insertInto taken constraint f) := by
  apply bind (silent .mayFail)
  intro _
  apply bind (silent (.readStore _))
  intro _
  apply ite (throw _)
  exact Meets.step (fun w _ => moves w.store) fun _ _ => trivial

theorem append (draft : AuditEventDraft) : Sparing mine caller (append draft) := by
  unfold Crewd.append
  split
  · exact pure _
  · apply bind (silent .nextFault)
    intro fault
    cases fault with
    | some text => exact pure _
    | none => exact Meets.step (fun _ _ => .same rfl) fun _ _ => trivial

theorem atomically (sparing : Sparing mine caller m) : Sparing mine caller (atomically m) := by
  intro w _
  have spared := sparing.spares w
  simp only [Crewd.atomically, Action.exec_mk]
  cases run : m.exec w with
  | mk result w' =>
    rw [run] at spared
    cases result with
    | error e => exact ⟨.single (.same rfl), fun _ _ => trivial⟩
    | ok a => exact ⟨.single spared, fun _ _ => trivial⟩

theorem transaction (sparing : Sparing mine caller m) :
    Sparing mine caller (transaction m) := by
  apply bind (silent .mayFail)
  intro _
  apply atomically
  apply bind sparing
  exact fun _ => bind (silent .mayFail) fun _ => pure _

end Sparing
end Rows

section Calls
variable {caller : String} {mine : String → Prop}

section Statements
variable {R : World → World → Prop} {thread : CellThread} {id : String} {w : World}
  (quiet : ∀ w w' : World, w.Quiet w' → R w w')
include quiet

theorem threadOrUnknown_meets : Meets R (·.At w.snapshot) (threadOrUnknown id)
    (fun thread v => v.At w.snapshot ∧ w.store.thread id = some thread) := by
  apply (meets_query quiet _).bind
  intro row
  cases row with
  | none => exact Meets.throw
  | some thread => exact Meets.pure fun v ⟨here, found⟩ => ⟨here, found.symm⟩

omit quiet in
theorem checkThreadOwner_meets (found : w.store.thread id = some thread) :
    Meets R (·.At w.snapshot) (checkThreadOwner caller thread)
      (fun _ v => v.At w.snapshot ∧ Owns caller w id) := by
  apply Meets.ite
  · exact fun own => Meets.pure fun _ here => ⟨here, thread, found, .inl own⟩
  · intro _
    apply (meets_readMemory _).bind
    intro acl
    apply Meets.ofExcept
    rintro _ v admin ⟨here, rfl⟩
    exact ⟨here, thread, found, .inr admin⟩

end Statements

section Adding
variable [Platform]

omit [Platform] in
theorem threadOrUnknown_sparing (id : String) : Sparing mine caller (threadOrUnknown id) := by
  apply meets_from
  intro w _
  refine ⟨_, w.at_snapshot, ?_⟩
  apply Meets.weaken (fun _ h => h) fun _ _ _ => trivial
  exact threadOrUnknown_meets fun _ _ quiet => .same quiet.store

theorem jobEnqueueInner_sparing (threadId cell payload : String) (depthCap : Nat) :
    Sparing mine caller (jobEnqueueInner threadId cell payload depthCap) := by
  apply Sparing.bind (.query _)
  intro count
  apply Sparing.ite (.throw _)
  apply Sparing.bind (.query _)
  intro next
  apply Sparing.bind (.silent .newUuidv7)
  intro id
  apply Sparing.bind (.silent .nowRfc3339)
  intro time
  apply Sparing.bind (.insertInto fun st => ?_) fun _ => .pure _
  apply Spares.added
  · exact fun t stored => stored
  · exact fun j stored => List.mem_append_left _ stored
  · exact fun t stored => .inr stored

theorem spawnIdempotent_sparing (cellName key payload : String) (launch : Launch)
    (depthCap : Nat) :
    Sparing mine caller (spawnIdempotent caller cellName key payload launch depthCap) := by
  apply Sparing.bind (Meets.ofExcept fun _ _ _ _ => trivial)
  intro _
  apply Sparing.bind (Meets.ofExcept fun _ _ _ _ => trivial)
  intro _
  apply Sparing.bind (.silent .mayFail)
  intro _
  apply Sparing.bind
  · apply Sparing.atomically
    apply Sparing.bind (.query _)
    intro found
    cases found with
    | some row => exact .bind (.silent .mayFail) fun _ => .pure _
    | none =>
      apply Sparing.bind (.append _)
      intro audited
      cases audited with
      | error e => exact .throw _
      | ok _ =>
        apply Sparing.bind (.execute ?_) ?_
        · exact fun st => .tables rfl rfl
        intro _
        apply Sparing.bind (.query _)
        intro taken
        apply Sparing.ite (.throw _)
        apply Sparing.bind (.query _)
        intro busy
        apply Sparing.ite (.throw _)
        apply Sparing.bind (.silent .newUuidv7)
        intro threadId
        apply Sparing.bind (.silent .nowRfc3339)
        intro now
        apply Sparing.bind (.insertInto ?_) ?_
        · exact fun st => .tables rfl rfl
        intro _
        apply Sparing.bind
        · apply Sparing.insertInto
          intro st
          apply Spares.added
          · exact fun t stored => List.mem_append_left _ stored
          · exact fun j stored => stored
          · intro t stored
            rcases List.mem_append.mp stored with old | new
            · exact .inr old
            · exact .inl (congrArg CellThread.createdByPrincipal (List.mem_singleton.mp new))
        · intro _
          apply Sparing.bind (jobEnqueueInner_sparing _ _ _ _)
          exact fun _ => .bind (.silent .mayFail) fun _ => .pure _
  · intro outcome
    cases outcome with
    | inr thread => exact .pure _
    | inl threadId =>
      apply Sparing.bind (.query _)
      intro found
      cases found with
      | none => exact .throw _
      | some thread => exact .pure _

theorem spawnAndRecord_sparing (task : Nat) (target : Target) (key payload : String)
    (launch : Launch) :
    Sparing mine caller (spawnAndRecord task caller target key payload launch) := by
  apply Sparing.bind (.silent (.readStore _))
  intro before
  apply Sparing.bind (spawnIdempotent_sparing _ _ _ _ _)
  intro spawned
  apply Sparing.bind (.silent (.readStore _))
  intro after
  apply Sparing.bind (Meets.step (fun _ _ => .same rfl) fun _ _ => trivial)
  exact fun _ => .pure _

end Adding

section Cancelling
variable {id : String} {w : World}

/-- The rows of these jobs are jobs of the thread. -/
def Theirs (id : String) (jobs : List CellJob) (w : World) : Prop :=
  ∀ j ∈ w.store.jobs, (∃ listed ∈ jobs, listed.jobId = j.jobId) → j.crewdThreadId = id

theorem cancelAll_spares (own : mine id) (jobs : List CellJob) :
    Meets (fun w w' : World => Spares mine caller w.store w'.store) (Theirs id jobs)
      (jobs.forM fun j => jobCancel j.jobId) (fun _ _ => True) := by
  induction jobs with
  | nil => exact Meets.pure fun _ _ => trivial
  | cons job rest ih =>
    apply Meets.bind (Q := fun _ => Theirs id rest) _ fun _ => ih
    apply meets_from
    intro v theirs
    refine ⟨_, v.at_snapshot, ?_⟩
    apply Meets.weaken (fun _ h => h) _ (jobSetState_meets (fun _ _ quiet => .same quiet.store) _)
    · rintro _ v' ⟨row, found, here⟩ j stored ⟨listed, member, named⟩
      rw [here.store] at stored
      obtain ⟨old, known, rfl⟩ := mem_updateJob.mp stored
      have kept : (if old.jobId = row.jobId then CellJob.setState .cancelled old else old).fixed =
          old.fixed := by
        split
        · rfl
        · rfl
      obtain ⟨sameJob, sameThread, _⟩ := CellJob.fixed_inj kept
      rw [sameThread]
      exact theirs old known ⟨listed, List.mem_cons_of_mem _ member, named.trans sameJob⟩
    · intro w row here found
      apply Spares.updatedJob
      intro j stored named
      rw [here.store] at stored
      have same : row.jobId = job.jobId := (job_of_find found).2
      have known := theirs j stored ⟨job, List.mem_cons_self, (named.trans same).symm⟩
      rwa [known]

theorem interruptRunning_spares {thread : CellThread} (own : mine thread.crewdThreadId) :
    Meets (fun w w' : World => Spares mine caller w.store w'.store) (fun _ => True)
      (interruptRunning thread) (fun _ _ => True) := by
  apply Meets.ite
  · intro running
    apply meets_from
    intro v _
    refine ⟨_, v.at_snapshot, ?_⟩
    apply Meets.weaken (fun _ h => h) fun _ _ _ => trivial
    apply threadTransition_meets fun _ _ quiet => .same quiet.store
    exact fun _ _ _ _ _ _ => .updatedThread own fun _ => ⟨rfl, rfl⟩
  · exact fun _ => Meets.pure fun _ _ => trivial

/-- The jobs that are listed to be cancelled are the thread's. -/
theorem listed_theirs (once : (w.store.jobs.map (·.jobId)).Nodup) {v : World}
    (here : v.At w.snapshot) :
    Theirs id ((w.store.jobsForThread id).filter (·.state.active)) v := by
  rintro j stored ⟨listed, member, same⟩
  rw [here.store] at stored
  have theirs := List.mem_filter.mp ((List.mem_insertionSort _).mp (List.mem_filter.mp member).1)
  rw [← List.inj_on_of_nodup_map once theirs.1 stored same]
  exact of_decide_eq_true theirs.2

/-- The caller's right to the thread is looked at before one of the rows changes. -/
theorem cancelThread_spares (once : (w.store.jobs.map (·.jobId)).Nodup)
    (opens : Owns caller w id → mine id) :
    Spares mine caller w.store ((cancelThread caller id).exec w).2.store := by
  have quiet : ∀ v v' : World, v.Quiet v' → Spares mine caller v.store v'.store :=
    fun _ _ quiet => .same quiet.store
  apply spares_of_path
  apply And.left (b := ∀ a, _ → True)
  apply (_ : Meets _ (·.At w.snapshot) _ fun _ _ => True) w w.at_snapshot
  apply (threadOrUnknown_meets quiet).bind
  intro thread
  apply Meets.given
  intro v ⟨here, found⟩
  have named : thread.crewdThreadId = id := (thread_of_find found).2
  refine ⟨(·.At w.snapshot), here, ?_⟩
  apply (checkThreadOwner_meets found).bind
  intro _
  apply Meets.given
  intro v ⟨here, own⟩
  refine ⟨(·.At w.snapshot), here, ?_⟩
  apply (meets_query quiet _).bind
  intro jobs
  apply Meets.given
  rintro v ⟨here, rfl⟩
  refine ⟨(·.At w.snapshot), here, ?_⟩
  apply Meets.bind
  · exact (cancelAll_spares (opens own) _).weaken (fun _ => listed_theirs once) fun _ _ h => h
  intro _
  apply Meets.bind (interruptRunning_spares (by rw [named]; exact opens own))
  exact fun _ => Meets.pure fun _ _ => trivial

end Cancelling
end Calls

def Request.caller : Request → String
  | .spawn caller _ | .sendTask caller _ | .cancel caller _ => caller

/-- The request is a cancel of the thread, and the thread is open to its caller. -/
def Request.MayCancel (request : Request) (w : World) (id : String) : Prop :=
  ∃ caller params p, request = .cancel caller params ∧ params.parsed = .ok p ∧
    p.crewdThreadId = id ∧ Owns caller w id

/-- What a section of the call does, as long as no two jobs share an identifier. -/
def Touches (request : Request) (w w' : World) : Prop :=
  (w.store.jobs.map (·.jobId)).Nodup →
    Spares (request.MayCancel w) request.caller w.store w'.store

section Sections
variable {request : Request} {caller : String} {α : Type} {m : Act α}

theorem touches_locked (spares : ∀ w : World, (w.store.jobs.map (·.jobId)).Nodup →
      Spares (request.MayCancel w) request.caller w.store (m.exec w).2.store) :
    Throughout (Touches request) (locked m) := by
  intro visits
  apply Goes.locked
  · exact fun i w once => spares (w.install i) once
  · exact fun _ _ _ _ => trivial
  · exact fun _ _ _ _ => trivial

theorem touches_sparing (sparing : ∀ mine : String → Prop, Sparing mine request.caller m) :
    Throughout (Touches request) (locked m) := touches_locked fun w _ => (sparing _).spares w

theorem touches_silent (silent : Silent m) : Throughout (Touches request) (locked m) :=
  touches_sparing fun _ => .silent silent

theorem handleCancel_touches (params : Params CellCancelParams) :
    Throughout (Touches (.cancel caller params)) (handleCancel caller params) := by
  apply Throughout.bind .raise
  intro _ visits
  apply Goes.raised
  · exact fun _ _ => trivial
  intro p parsed
  apply Throughout.bind (touches_silent (checkCapability_silent _ _))
  intro _
  apply Throughout.bind
  · apply touches_locked
    intro w once
    apply cancelThread_spares once
    exact fun own => ⟨caller, params, p, rfl, parsed_of_ok parsed, rfl, own⟩
  intro cancelled
  apply Throughout.bind
  · exact touches_locked fun w _ => .same (audit_store _ _ _ _ _ _ w)
  intro _
  apply Throughout.bind (touches_locked fun w _ => .same rfl)
  exact fun _ => .pure

variable [Platform]

theorem handleSpawn_touches (task : Nat) (params : Params CellSpawnParams) :
    Throughout (Touches (.spawn caller params)) (handleSpawn task caller params) := by
  apply Throughout.bind .raise
  intro _
  apply Throughout.bind .raise
  intro p
  apply Throughout.bind (touches_silent (checkCapability_silent _ _))
  intro _
  apply Throughout.bind .raise
  intro _
  apply Throughout.bind .raise
  intro _
  apply Throughout.bind
  · cases p.cell with
    | none => exact .pure
    | some c => exact touches_silent (.query _)
  intro named
  apply Throughout.bind .raise
  intro reqEngine
  apply Throughout.bind .raise
  intro resolved
  apply Throughout.bind
  · cases resolved with
    | named d => exact .pure
    | ephemeral engine model profile cwd =>
      apply Throughout.bind (touches_silent .newUuidv7)
      exact fun _ => .pure
  intro chosen
  apply Throughout.bind (touches_sparing fun _ => spawnAndRecord_sparing _ _ _ _ _)
  exact fun _ => .pure

theorem handleSendTask_touches (params : Params CellSendTaskParams) :
    Throughout (Touches (.sendTask caller params)) (handleSendTask caller params) := by
  apply Throughout.bind .raise
  intro _
  apply Throughout.bind .raise
  intro p
  apply Throughout.bind (touches_silent (checkCapability_silent _ _))
  intro _
  apply Throughout.bind
  · apply touches_sparing
    intro mine
    apply Sparing.bind (threadOrUnknown_sparing _)
    intro thread
    exact .ite (.throw _) (.transaction (jobEnqueueInner_sparing _ _ _ _))
  · exact fun _ => .pure

theorem program_touches (task : Nat) (request : Request) : (service.program task request).Along
    (fun _ _ => Touches request) (fun _ _ => True) [] := by
  have touches : Throughout (Touches request) (handle task request) := by
    cases request with
    | spawn caller params => exact handleSpawn_touches task params
    | sendTask caller params => exact handleSendTask_touches params
    | cancel caller params => exact handleCancel_touches params
  exact Process.Along.weaken (fun _ _ _ _ effect => effect) (fun _ _ _ => trivial) (touches [])

end Sections

section Runs
variable [Platform] {c d u v : FabricConfig}

/-- A section of a call leaves the rows of every thread that it may not cancel. -/
theorem call_spares (blank : Blank w) (reached : service.Reaches w u)
    (stepped : service.next u (.run task i) = some v) :
    ∃ request code, u.pool[task]? = some (request, some code) ∧
      Spares (request.MayCancel u.shared) request.caller u.shared.store v.shared.store := by
  obtain ⟨request, code, found, touches⟩ := System.run_of_reaches program_touches reached stepped
  exact ⟨request, code, found, touches (good_reachable blank reached).1.jobsOnce⟩

omit [Platform] in
theorem happens_spares (event : Event) (s t : World) (happened : happens event s = some t) :
    t.store.threads = s.store.threads ∧ t.store.jobs = s.store.jobs := by
  cases event with
  | died cell | minted =>
    cases happened
    exact ⟨rfl, rfl⟩
  | _ =>
    simp only [happens] at happened
    split at happened
    · cases happened
      exact ⟨rfl, rfl⟩
    · cases happened

/-- The scheduler and a restart may change any row, a call those of a thread it may cancel. -/
def Entitled (u : FabricConfig) (id : String) : Move (Input Outside) Request Event → Prop
  | .main _ | .crash _ => True
  | .run task _ => ∃ request code, u.pool[task]? = some (request, some code) ∧
      request.MayCancel u.shared id
  | .call _ | .event _ => False

theorem row_stays (id : String) (blank : Blank w) (reached : service.Reaches w u)
    (stepped : service.next u action = some v) (barred : ¬ Entitled u id action) :
    (∀ t ∈ u.shared.store.threads, t.crewdThreadId = id → t ∈ v.shared.store.threads) ∧
      ∀ j ∈ u.shared.store.jobs, j.crewdThreadId = id → j ∈ v.shared.store.jobs := by
  cases action with
  | main i => exact absurd trivial barred
  | crash i => exact absurd trivial barred
  | run task i =>
    obtain ⟨request, code, found, spares⟩ := call_spares blank reached stepped
    have foreign : ¬ request.MayCancel u.shared id :=
      fun may => barred ⟨request, code, found, may⟩
    constructor
    · exact fun t stored named => spares.threads t stored (by rwa [named])
    · exact fun j stored named => spares.jobs j stored (by rwa [named])
  | call request =>
    simp only [System.next] at stepped
    split at stepped
    · cases stepped
      exact ⟨fun t stored _ => stored, fun j stored _ => stored⟩
    · cases stepped
  | event event =>
    obtain ⟨s, happened, rfl⟩ := Option.map_eq_some_iff.mp stepped
    obtain ⟨threads, jobs⟩ := happens_spares event _ _ happened
    constructor
    · intro t stored _
      rwa [threads]
    · intro j stored _
      rwa [jobs]

/-- On the way from one state to another, a move was entitled to the rows of the thread. -/
def Permitted (c d : FabricConfig) (id : String) : Prop :=
  ∃ u action v, service.Leads c u ∧ service.next u action = some v ∧ service.Leads v d ∧
    Entitled u id action

/-- The row of a thread, and that of each of its jobs, is the same for as long as the scheduler
is not at work, the daemon is not restarted, and no one cancels the thread who may. -/
theorem rows_change_by_right (blank : Blank w) (reached : service.Reaches w c)
    (later : service.Leads c d) :
    (∀ t ∈ c.shared.store.threads, t ∉ d.shared.store.threads → Permitted c d t.crewdThreadId) ∧
      ∀ j ∈ c.shared.store.jobs, j ∉ d.shared.store.jobs → Permitted c d j.crewdThreadId := by
  induction later with
  | refl => exact ⟨fun t stored gone => absurd stored gone, fun j stored gone => absurd stored gone⟩
  | @next u action v before stepped ih =>
    have extend : ∀ id, Permitted c u id → Permitted c v id := by
      rintro id ⟨a, move, b, from', moved, after, entitled⟩
      exact ⟨a, move, b, from', moved, after.next stepped, entitled⟩
    have stays := fun id => row_stays id blank (reached.trans _ before) stepped
    constructor
    · intro t stored gone
      by_cases entitled : Entitled u t.crewdThreadId action
      · exact ⟨u, action, v, before, stepped, .refl _, entitled⟩
      · exact extend _ (ih.1 t stored fun there => gone ((stays _ entitled).1 t there rfl))
    · intro j stored gone
      by_cases entitled : Entitled u j.crewdThreadId action
      · exact ⟨u, action, v, before, stepped, .refl _, entitled⟩
      · exact extend _ (ih.2 j stored fun there => gone ((stays _ entitled).2 j there rfl))

end Runs

section Sample

/-- The principal that spawned the thread cancels it while it runs. -/
theorem running_thread_changed_by_right : ∃ c d t, sampleService.Reaches blankWorld c ∧
    sampleService.Leads c d ∧ t ∈ c.shared.store.threads ∧ t ∉ d.shared.store.threads ∧
    @Permitted .sample c d t.crewdThreadId := by
  let _ := Platform.sample
  let request : Request := .cancel "coder" ⟨["crewd_thread_id"], .ok ⟨firstThread⟩⟩
  have ran : ((sampleService.runs (System.dormant blankWorld) firstTurn).bind fun c =>
      (sampleService.next c (.call request)).bind fun c' =>
        (sampleService.runs c' (sections 1 4 1783242003)).bind fun d =>
          c'.shared.store.threads.head?.map fun t =>
            decide (t ∉ d.shared.store.threads)) = some true := by
    decide +kernel
  obtain ⟨c, first, ran⟩ := Option.bind_eq_some_iff.mp ran
  obtain ⟨c', called, ran⟩ := Option.bind_eq_some_iff.mp ran
  obtain ⟨d, last, ran⟩ := Option.bind_eq_some_iff.mp ran
  obtain ⟨t, listed, fact⟩ := Option.map_eq_some_iff.mp ran
  have gone := of_decide_eq_true fact
  have stored : t ∈ c'.shared.store.threads := List.mem_of_head? listed
  have reached := (System.leads_of_runs _ first).next called
  have later : sampleService.Leads c' d := System.leads_of_runs _ last
  exact ⟨c', d, t, reached, later, stored, gone,
    (rows_change_by_right blankWorld_blank reached later).1 t stored gone⟩

end Sample
end Crewd.Fabric
