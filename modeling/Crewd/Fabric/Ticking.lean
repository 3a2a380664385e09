import Crewd.Fabric.Conduct

/-! The scheduler's tick: what is remembered from reading a turn to landing it, and
from leasing a job to starting its turn. -/
namespace Crewd.Fabric
open Autocommit Concurrent Table

variable {P : World → Prop} {threadId cell : String} {turn : InFlightTurn} {now : Snap}

section Draining

/-- A turn that was looked up is the only one of its thread. -/
theorem Inv.aboard (inv : Inv w) (found : w.memory.scheduler.turn threadId = some turn) :
    Aboard threadId turn.turn turn.cell w := by
  intro t member
  have known : (threadId, turn) ∈ w.memory.scheduler.inFlight := mem_of_lookup found
  have same := List.inj_on_of_nodup_map inv.turnsOnce member known rfl
  cases same
  exact ⟨rfl, rfl⟩

theorem poll_marks (w : World) : ∀ events, ((poll turn).exec w).1 = .ok events →
    ∀ e ∈ events, Mark.polled turn.turn e.1 e.2 ∈ ((poll turn).exec w).2.history := by
  simp only [poll, Action.exec_step]
  split
  · rintro events ⟨⟩ e member
    cases member
  · rintro events ⟨⟩ e member
    exact List.mem_append_left _ (List.mem_reverse.mpr (List.mem_map.mpr ⟨e, member, rfl⟩))

theorem drainTurn_plain : Plain .main (drainTurn threadId) := by
  refine Runs.bind (Q := fun polled w => ∀ turn events, polled = some (turn, events) →
    Draining threadId turn.turn turn.cell events w) ?_ fun polled => ?_
  · refine follows_locked .trivial (fun _ _ _ step h turn events same =>
      Draining.robust _ _ step (h turn events same)) ?_
    refine Meets.bind (Q := fun found w => Inv w ∧ found = w.memory.scheduler.turn threadId)
      (Meets.look (fun _ => rfl) fun _ h => ⟨h.1.1, rfl⟩) fun found => ?_
    cases found with
    | none => exact Meets.pure fun _ _ _ _ same => by cases same
    | some turn =>
      refine Meets.bind (Q := fun events => Draining threadId turn.turn turn.cell events) ?_
        fun events => Meets.pure fun _ h _ _ same => by cases same; exact h
      intro w ⟨inv, found⟩
      have step : Statement .main w ((poll turn).exec w).2 := .polled threadId turn rfl found.symm
      have ground : Ground w ((poll turn).exec w).2 := .still step (poll_leaves turn w).2
      have flying : Flying threadId turn.cell w := ⟨turn, mem_of_lookup found.symm, rfl⟩
      exact ⟨.single step, fun events ok => ⟨ground.aboard _ _ _ (inv.aboard found.symm),
        ground.flying _ _ flying, poll_marks w events ok⟩⟩
  · cases polled with
    | none => exact Runs.pure fun _ _ _ => trivial
    | some polled =>
      obtain ⟨turn, events⟩ := polled
      exact Runs.weaken (fun _ _ h => h _ _ rfl) drainEvents_follows

end Draining

section Overdue

/-- The turn that was taken out was under way. -/
theorem takeTurn_meets : Meets (Statement .main) Underway (takeTurn threadId)
    (fun taken w => ∀ turn, taken = some turn → Begun turn.jobId w.history) := by
  refine Meets.step (fun _ _ => .overdue threadId rfl) fun w underway turn => ?_
  split
  · exact fun absent => by cases absent
  · rename_i found
    intro same
    cases same
    exact (underway.begun _ (mem_of_lookup found)).grow (List.suffix_cons _ _)

theorem handleTimeout_plain : Plain .main (handleTimeout threadId) := by
  have robust : ∀ taken : Option InFlightTurn, Robust fun w => ∀ turn, taken = some turn →
      Begun turn.jobId w.history :=
    fun _ _ _ step begun turn same => (begun turn same).grow step.grows.history
  refine Runs.bind (follows_locked .trivial robust
    (takeTurn_meets.weaken (fun _ h => h.1.2.2) fun _ _ h => h)) fun taken => ?_
  cases taken with
  | none => exact Runs.pure fun _ _ _ => trivial
  | some turn =>
    refine Runs.weaken (P := fun w => Begun turn.jobId w.history) (fun _ _ begun => begun turn rfl) ?_
    refine Runs.bind (follows_grounded _ Begun.robust
      (fun _ _ step begun => begun.grow step.statement.grows.history) (Meets.bind (Calmly.begun ?_) fun _ =>
        Meets.bind (Calmly.begun (.threadTransition (by decide))) fun _ => ?_)) fun _ =>
          Runs.weaken (fun _ _ _ => trivial) (Plain.calmly .auditAppend)
    · cases turn.engineTurnId with
      | none => exact .pure ()
      | some id => exact .threadSetEngineIds
    · refine Meets.ite (fun _ => jobFinish_grounds) fun _ => ?_
      exact Grounded.jobRequeue.ignore.weaken (fun _ _ => trivial) fun _ _ h => h

theorem auditStopped_calmly {there : Bool} : Calmly (auditStopped cell there) :=
  .ite (fun _ => .bind (.append _) fun _ => .pure _) fun _ => .pure _

theorem respawnBackoffSecs_calmly : Calmly (respawnBackoffSecs cell) :=
  Meets.step (fun _ _ => .backoff _) fun _ _ => trivial

/-- A dead engine is stopped together with the turn it was running. -/
theorem bury_meets {number : Nat} : Meets (Statement .main) (Aboard threadId number cell)
    (stopEngine cell (·.land threadId)) (fun _ _ => True) := by
  refine Meets.steps (fun w aboard => ?_) fun _ _ => trivial
  refine .head (.calm (.stopped cell)) (.single (.landed threadId rfl fun t member => .inl ?_))
  rw [(aboard t member).2]
  exact lookup_without _

theorem checkDeathAndTimeout_plain {nowNanos : Nat} :
    Plain .main (checkDeathAndTimeout nowNanos threadId) := by
  refine Runs.bind (Q := fun found w => ∀ turn rest, found = some (turn, rest) →
    Aboard threadId turn.turn turn.cell w ∧ Begun turn.jobId w.history) ?_ fun found => ?_
  · refine follows_locked .trivial (fun _ _ _ step h turn rest same =>
      (Aboard.robust _ _ _).and Begun.robust _ _ step (h turn rest same)) (Meets.look (fun _ => rfl) ?_)
    intro w h turn rest same
    obtain ⟨t, found, pair⟩ := Option.map_eq_some_iff.mp same
    cases pair
    exact ⟨h.1.1.aboard found, h.1.2.2.begun _ (mem_of_lookup found)⟩
  · cases found with
    | none => exact Runs.pure fun _ _ _ => trivial
    | some found =>
      obtain ⟨turn, up, timeoutSecs⟩ := found
      refine Runs.weaken (P := fun w => Aboard threadId turn.turn turn.cell w ∧
        Begun turn.jobId w.history) (fun _ _ h => h _ _ rfl) ?_
      simp only
      split
      · refine Runs.bind (failTurn_follows ((Aboard.robust _ _ _).and Begun.robust)
          (fun _ _ step h => ⟨step.aboard _ _ _ h.1, h.2.grow step.statement.grows.history⟩) fun _ h _ => h.2)
          fun _ => ?_
        refine Runs.weaken (P := Aboard threadId turn.turn turn.cell) (fun _ _ h => h.1) ?_
        refine follows_locked (Aboard.robust _ _ _) (fun _ => .trivial) ?_
        refine Meets.bind (Q := fun _ => Aboard threadId turn.turn turn.cell)
          (Meets.look (fun _ => rfl) fun _ h => h.2) fun there => ?_
        refine Meets.bind bury_meets fun _ => Calmly.statements ?_
        exact .bind auditStopped_calmly fun _ => .bind respawnBackoffSecs_calmly fun _ => .pure _
      · refine Runs.weaken (fun _ _ _ => trivial) ?_
        split
        · exact handleTimeout_plain
        · exact Plain.pure

end Overdue

section Starting

theorem Clear.robust : Robust (Clear cell) := by
  intro w w' step clear entry h
  rw [step.inFlight] at h
  exact clear entry h

theorem Startable.robust : Robust (Startable job cell) := fun _ _ step h => h.calm step

/-- Nobody but the scheduler leases. -/
theorem Calm.lastLease {w w' : World} (step : Calm w w') :
    Crewd.Fabric.lastLease w'.history = Crewd.Fabric.lastLease w.history := by
  cases step with
  | quiet same => rw [same.history]
  | _ => rfl

/-- Nobody but the scheduler prepares an adapter. -/
theorem Calm.useOf {w w' : World} (step : Calm w w') :
    Crewd.Fabric.useOf cell w'.history = Crewd.Fabric.useOf cell w.history := by
  cases step with
  | quiet same => rw [same.history]
  | _ => rfl

theorem Carries.updated {st : Store} {thread : CellThread} {id : String}
    {f : CellThread → CellThread}
    (keeps : ∀ t, (f t).crewdThreadId = t.crewdThreadId ∧ (f t).engineThreadId = t.engineThreadId)
    (carries : Carries thread st) : Carries thread (st.updateThread id f) := by
  obtain ⟨t, stored, named, same⟩ := carries
  refine ⟨_, mem_updateThread.mpr ⟨t, stored, rfl⟩, ?_⟩
  split
  · exact ⟨(keeps t).1.trans named, (keeps t).2.trans same⟩
  · exact ⟨named, same⟩

theorem Carries.robust {thread : CellThread} : Robust fun w => Carries thread w.store := by
  intro w w' step carries
  cases step with
  | quiet same => rw [same.store]; exact carries
  | columns id f keeps still => exact carries.updated fun t => ⟨(keeps t).1, still t⟩
  | moved id now t target _ _ _ => exact carries.updated fun _ => ⟨rfl, rfl⟩
  | spawned locks row new job spawns =>
    obtain ⟨t, stored, same⟩ := carries
    exact ⟨t, List.mem_append_left _ stored, same⟩
  | _ => exact carries

/-- What is remembered of a job between its lease and its start. -/
structure Leasing (job : CellJob) (cell : String) (w : World) : Prop where
  startable : Startable job cell w
  leased : ∃ row, Leased w.store row ∧ row.fixed = job.fixed
  last : lastLease w.history = some job.jobId

theorem Leasing.robust : Robust (Leasing job cell) := by
  intro w w' step leasing
  obtain ⟨row, leased, same⟩ := leasing.leased
  obtain ⟨row', leased', same'⟩ := leased.calm step
  exact ⟨leasing.startable.calm step, ⟨row', leased', same'.trans same⟩,
    step.lastLease.trans leasing.last⟩

theorem leased_follows : Follows .main (Clear cell) (locked do
      let leaseSecs ← readScheduler (·.leaseSecs)
      jobLeaseNext cell leaseSecs)
    (fun leased w => ∀ job, leased = some job → Leasing job cell w) := by
  refine follows_locked Clear.robust (fun _ _ _ step h job same => Leasing.robust _ _ step (h job same)) ?_
  refine Meets.bind (Q := fun _ w => Inv w ∧ Clear cell w)
    (Meets.look (fun _ => rfl) fun _ h => ⟨h.1.1, h.2⟩) fun leaseSecs => ?_
  refine meets_from fun w ⟨inv, clear⟩ => ⟨_, w.at_snapshot, ?_⟩
  refine jobLeaseNext_meets.weaken (fun _ h => h) fun leased w' h job same => ?_
  obtain ⟨row, expires, takes, found, here⟩ := h.2 job same
  obtain ⟨startable, rfl⟩ := inv.startable clear takes found here
  refine ⟨startable, ⟨_, inv.leased takes here, rfl⟩, ?_⟩
  rw [here.history]
  rfl

theorem Startable.begun (startable : Startable job cell w) (row : CellJob) :
    Startable job cell (writeRow w row (.setState .started) .started) := by
  obtain ⟨known, held⟩ := startable.written row.jobId (f := .setState .started) (fun _ => rfl)
    fun _ _ _ h => ⟨by simp [CellJob.setState], h.2⟩
  exact ⟨startable.thread, known, held, startable.unspent, startable.clear⟩

theorem Startable.moved (startable : Startable job cell w) (id now : String)
    (source target : ThreadState) : Startable job cell (moveThread w id now source target) :=
  ⟨HasThread.updated (fun _ => ⟨rfl, rfl⟩) startable.thread, startable.known, startable.held,
    startable.unspent, startable.clear⟩

/-- The job that is going to be started was marked so. -/
def Ready (job : CellJob) (cell : String) (w : World) : Prop :=
  Startable job cell w ∧ Begun job.jobId w.history

theorem Ready.robust : Robust (Ready job cell) := Startable.robust.and Begun.robust

/-- What the scheduler remembers until the adapter of the cell is prepared. -/
def Poised (job : CellJob) (thread : CellThread) (cell : String) (w : World) : Prop :=
  Ready job cell w ∧ Carries thread w.store

theorem Poised.robust {thread : CellThread} : Robust (Poised job thread cell) :=
  Ready.robust.and Carries.robust

/-- The job is marked started and its thread is set running. -/
theorem begin_meets {thread : CellThread} :
    Meets (Statement .main) (fun w => Good w ∧ Leasing job cell w ∧ Carries thread w.store) (do
      jobMarkStarted job.jobId
      threadTransition job.crewdThreadId .running)
    (fun _ => Poised job thread cell) := by
  refine meets_from fun w ⟨good, leasing, carries⟩ => ⟨_, w.at_snapshot, ?_⟩
  obtain ⟨row, leased, same⟩ := leasing.leased
  obtain ⟨sameJob, sameThread, _⟩ := CellJob.fixed_inj same
  have only : ∀ found, w.store.job job.jobId = some found → found = row := by
    intro found known
    obtain ⟨stored, named⟩ := job_of_find known
    exact good.1.job_unique stored leased.stored (named.trans sameJob.symm)
  refine Meets.bind (jobSetState_meets Statement.ofQuiet fun v found here known => ?_) fun _ =>
    meets_from fun v ⟨found, known, here⟩ => ⟨_, here, ?_⟩
  · obtain rfl := only found known
    refine .begun _ rfl ?_ ?_
    · rw [here.store]
      exact leased
    · rw [here.history, sameJob]
      exact leasing.last
  · obtain rfl := only found known
    refine (threadTransition_meets Statement.ofQuiet fun v time t here' known' allowed => ?_).weaken
      (fun _ h => h) fun _ v' ⟨time, t, _, _, here'⟩ => ?_
    · exact .running _ time t found _ rfl (by rw [here'.store]; exact known') allowed here'.history
        sameThread
    · have kept := ((leasing.startable.begun found).moved job.crewdThreadId time t.state .running)
      refine ⟨⟨kept.calm (.quiet ⟨here'.store, here'.audit, here'.memory, here'.history,
        here'.minted⟩), found, ?_, sameJob⟩, ?_⟩
      · rw [here'.history]
        exact List.mem_cons_of_mem _ List.mem_cons_self
      · rw [here'.store]
        exact Carries.updated (fun _ => ⟨rfl, rfl⟩) (show Carries thread (w.store.updateJob _ _) from carries)

/-- The adapter of the cell was prepared for the thread of the job. -/
def Aimed (job : CellJob) (cell : String) (w : World) : Prop :=
  Ready job cell w ∧ (useOf cell w.history).1 = some job.crewdThreadId

theorem Aimed.robust : Robust (Aimed job cell) :=
  fun _ _ step aimed => ⟨Ready.robust _ _ step aimed.1, by rw [step.useOf]; exact aimed.2⟩

/-- Marks that say nothing about jobs. -/
theorem Ready.marked {w w' : World} {mark : Mark} (ready : Ready job cell w)
    (store : w'.store = w.store) (history : w'.history = mark :: w.history)
    (spent : Spent job.jobId (mark :: w.history) → Spent job.jobId w.history)
    (inFlight : w'.memory.scheduler.inFlight = w.memory.scheduler.inFlight) :
    Ready job cell w' := by
  obtain ⟨startable, row, marked, named⟩ := ready
  refine ⟨⟨?_, ?_, ?_, ?_, ?_⟩, row, ?_, named⟩
  · rw [store]
    exact startable.thread
  · rw [store]
    exact startable.known
  · rw [store]
    exact startable.held
  · rw [history]
    exact fun again => startable.unspent (spent again)
  · rw [Clear, inFlight]
    exact startable.clear
  · rw [history]
    exact List.mem_cons_of_mem _ marked

theorem ensure_meets {kind : EngineKind} {thread : CellThread} :
    Meets (Statement .main) (Poised job thread cell) (ensure cell kind).outcome
      (fun _ => Poised job thread cell) := by
  let Keeps (w w' : World) : Prop :=
    Statement .main w w' ∧ (Poised job thread cell w → Poised job thread cell w')
  have made : ∀ threadId, Meets Keeps (fun w => w.memory.scheduler.engine cell = none ∧
      Poised job thread cell w) (makeAdapter cell kind threadId) (fun _ _ => True) := by
    refine fun threadId => Meets.step (fun w ⟨absent, poised⟩ => ⟨?_, fun _ => ?_⟩) fun _ _ => trivial
    · exact .made cell kind threadId rfl absent poised.1.1.clear
    · exact ⟨poised.1.marked rfl rfl (fun again => again) rfl, poised.2⟩
  have inner : Meets Keeps (Poised job thread cell) (ensure cell kind) (fun _ _ => True) := by
    refine Meets.bind (Q := fun engine w => engine = w.memory.scheduler.engine cell ∧
      Poised job thread cell w) (Meets.look (fun _ => rfl) fun _ poised => ⟨rfl, poised⟩)
      fun engine => Meets.ite (fun _ => Meets.pure fun _ _ => trivial) fun absent => ?_
    refine Meets.bind (Q := fun _ w => w.memory.scheduler.engine cell = none ∧
      Poised job thread cell w) (Meets.look (fun _ => rfl) fun _ ⟨same, poised⟩ => ⟨?_, poised⟩)
      fun outcome => ?_
    · simpa [← same] using absent
    · cases outcome with
      | ok threadId => exact made threadId
      | error e => exact Meets.ite (fun _ => made none) fun _ => Meets.throw
  refine ((Meets.outcome inner fun w w' poised path => ?_).mono fun _ _ step => step.1).weaken
    (fun _ h => h) fun _ _ h => h.1
  induction path with
  | refl => exact poised
  | tail _ last ih => exact last.2 ih

theorem Engine.resumed_resumes {thread : CellThread} {threadId : Option String}
    (sessionId : Option String) (own : threadId = none ∨ threadId = thread.engineThreadId) :
    Resumes thread (Engine.resumed threadId sessionId) := by
  constructor
  · intro e
    simp only [Engine.resumed]
    split <;> exact ⟨rfl, rfl, rfl⟩
  · intro e
    simp only [Engine.resumed]
    split
    · cases threadId with
      | none => exact .inl rfl
      | some id =>
        have same := own.resolve_left (Option.some_ne_none id)
        exact .inr ⟨same ▸ Option.some_ne_none id, same⟩
    all_goals exact .inl rfl

theorem Resumes.id {thread : CellThread} : Resumes thread id :=
  ⟨fun _ => ⟨rfl, rfl, rfl⟩, fun _ => .inl rfl⟩

theorem attach_meets {thread : CellThread} {f : Engine → Engine} (resumes : Resumes thread f)
    (own : thread.crewdThreadId = job.crewdThreadId) :
    Meets (Statement .main) (Poised job thread cell) (attach cell thread f)
      (fun _ => Aimed job cell) := by
  refine Meets.step (fun w poised => ?_) fun w poised => ⟨?_, ?_⟩
  · exact .attached thread cell f rfl poised.1.1.clear poised.2 resumes
  · exact poised.1.marked rfl rfl (fun again => again) rfl
  · simp [useOf, own]

theorem maybeResume_meets {d : CellDef} {thread : CellThread}
    (own : thread.crewdThreadId = job.crewdThreadId) :
    Meets (Statement .main) (Poised job thread d.name) (maybeResume d thread)
      (fun _ => Aimed job d.name) := by
  refine Meets.bind (Q := fun _ => Poised job thread d.name)
    (Meets.look (fun _ => rfl) fun _ h => h) fun resumes => Meets.ite (fun _ => ?_) fun _ => ?_
  · refine Meets.ite (fun _ => ?_) fun _ => ?_
    · exact attach_meets (Engine.resumed_resumes none (.inr rfl)) own
    · exact attach_meets (Engine.resumed_resumes _ (.inl rfl)) own
  · exact attach_meets .id own

theorem startTurn_meets {nowNanos : Nat} : Meets (Statement .main) (Aimed job cell)
    (startTurn cell job.crewdThreadId job.jobId nowNanos).outcome
    (fun _ w => Begun job.jobId w.history) := by
  refine Meets.weaken (fun _ h => h) (fun _ _ h => h.1) (Meets.outcome (Q := fun _ _ => True) ?_
    fun _ _ aimed (steps : Steps .main _ _) => aimed.1.2.grow steps.grows.history)
  refine Meets.bind (Q := fun engine w => engine = w.memory.scheduler.engine cell ∧
    Aimed job cell w) (Meets.look (fun _ => rfl) fun _ h => ⟨rfl, h⟩) fun engine => ?_
  refine Meets.ite (fun there => ?_) fun _ => Meets.throw
  refine Meets.bind (Q := fun _ w => (w.memory.scheduler.engine cell).isSome ∧
    Aimed job cell w) (Meets.look (fun _ => rfl) fun _ h => ⟨h.1 ▸ there, h.2⟩) fun result => ?_
  refine Meets.bind (Meets.step (Q := fun _ _ => True) (fun _ h => ?_) fun _ _ => trivial) fun _ =>
    Meets.ofExcept fun _ _ _ _ => trivial
  exact .launched job cell nowNanos _ rfl h.2.1.1 h.2.1.2 h.1 h.2.2

/-- The record of the thread as it was read. -/
theorem threadRead_follows {id : String} : Follows .main (Leasing job cell)
    (locked (query (·.thread id)))
    (fun found w => Leasing job cell w ∧
      ∀ thread, found = some thread → thread.crewdThreadId = id ∧ Carries thread w.store) := by
  refine follows_locked Leasing.robust (fun found => Leasing.robust.and fun _ _ step carries thread same =>
    ⟨(carries thread same).1, Carries.robust _ _ step (carries thread same).2⟩) ?_
  refine meets_from fun w ⟨_, leasing⟩ => ⟨_, w.at_snapshot, ?_⟩
  refine (meets_query Statement.ofQuiet _).weaken (fun _ h => h) fun found v ⟨here, known⟩ => ⟨?_, ?_⟩
  · exact Leasing.robust _ _ (.quiet (quiet_of_at here)) leasing
  · intro thread same
    obtain ⟨stored, named⟩ := thread_of_find (known.symm.trans same)
    refine ⟨named, thread, ?_, rfl, rfl⟩
    rw [here.store]
    exact stored

theorem tryStartTurn_follows {d : CellDef} {nowNanos : Nat} :
    Follows .main (Clear d.name) (tryStartTurn d nowNanos) (fun _ _ => True) := by
  refine Runs.bind leased_follows fun leased => ?_
  cases leased with
  | none => exact Runs.pure fun _ _ _ => trivial
  | some job =>
    refine Runs.weaken (P := Leasing job d.name) (fun _ _ h => h job rfl) ?_
    refine Runs.bind threadRead_follows fun found => ?_
    cases found with
    | none => exact Runs.pure fun _ _ _ => trivial
    | some thread =>
      refine Runs.weaken (P := fun w => thread.crewdThreadId = job.crewdThreadId ∧
        (Leasing job d.name w ∧ Carries thread w.store))
        (fun _ _ h => ⟨(h.2 thread rfl).1, h.1, (h.2 thread rfl).2⟩) (Runs.assume fun own => ?_)
      simp only
      split
      swap
      · exact Runs.pure fun _ _ _ => trivial
      refine Runs.bind (Q := fun _ => Poised job thread d.name)
        (follows_locked (Leasing.robust.and Carries.robust) (fun _ => Poised.robust) begin_meets)
        fun _ => ?_
      refine Runs.bind (follows_calmly Poised.robust .auditAppend) fun _ => ?_
      refine Runs.bind (Q := fun _ => Poised job thread d.name) (follows_locked Poised.robust
        (fun _ => Poised.robust) (ensure_meets.weaken (fun _ h => h.2) fun _ _ h => h)) fun ensured => ?_
      cases ensured with
      | error e => exact Runs.weaken (fun _ _ poised _ => poised.1.2) failTurn_ends
      | ok u =>
        refine Runs.bind (follows_locked Poised.robust (fun _ => Aimed.robust)
          ((maybeResume_meets own).weaken (fun _ h => h.2) fun _ _ h => h)) fun _ => ?_
        refine Runs.bind (follows_locked Aimed.robust (fun _ => Begun.robust)
          (startTurn_meets.weaken (fun _ h => h.2) fun _ _ h => h)) fun started => ?_
        cases started with
        | error e => exact Runs.weaken (fun _ _ begun _ => begun) failTurn_ends
        | ok u => exact Runs.pure fun _ _ _ => trivial

theorem startTurns_plain {nowNanos : Nat} : Plain .main (startTurns nowNanos) := by
  refine Plain.bind (.silent (.bind (.query _) fun _ => .bind (.query _) fun _ => .pure _))
    fun cells => Plain.forM fun d => ?_
  refine Runs.bind (Q := fun busy w => busy = false → Clear d.name w)
    (follows_locked .trivial (fun _ _ _ step h free => Clear.robust _ _ step (h free))
      (Meets.look (fun _ => rfl) fun w _ free entry member => ?_)) fun busy => ?_
  · have idle := List.any_eq_false.mp free entry member
    simpa using idle
  · cases busy with
    | true => exact Runs.pure fun _ _ _ => trivial
    | false => exact Runs.weaken (fun _ _ h => h rfl) tryStartTurn_follows

end Starting

section Tick

def Snap.requeued (now : Snap) (id : String) : Snap := { now with
  store := now.store.updateJob id CellJob.requeue
  history := .requeued id :: now.history }

theorem requeueRow_at {w : World} (here : w.At now) (id : String) :
    ((requeueRow id).exec w).2.At (now.requeued id) :=
  ⟨congrArg (fun st : Store => st.updateJob id CellJob.requeue) here.store, here.audit, here.memory,
    congrArg (List.cons (Mark.requeued id)) here.history, here.minted⟩

/-- The jobs of the list are requeued one by one. -/
private theorem requeueAll_meets {ids : List String} (once : ids.Nodup)
    (due : ∀ id ∈ ids, ∃ j ∈ now.store.jobs, j.jobId = id ∧ j.unaccepted = true) :
    Meets (fun w w' => Statement .main w w' ∧ Confined w w') (·.At now)
      (ids.forM fun id => do
        mayFail
        requeueRow id) (fun _ _ => True) := by
  have quiet : ∀ w w' : World, w.Quiet w' → Statement .main w w' ∧ Confined w w' :=
    fun w w' same => ⟨.ofQuiet w w' same, .ofQuiet w w' same⟩
  induction ids generalizing now with
  | nil => exact Meets.pure fun _ _ => trivial
  | cons id rest ih =>
    obtain ⟨absent, once⟩ := List.nodup_cons.mp once
    have tail := @ih (now.requeued id) once fun other member => by
      obtain ⟨j, stored, same, unaccepted⟩ := due other (List.mem_cons_of_mem _ member)
      refine ⟨j, mem_updateJob.mpr ⟨j, stored, ?_⟩, same, unaccepted⟩
      have apart : j.jobId ≠ id := by
        rintro rfl
        exact absent (same ▸ member)
      rw [if_neg apart]
    refine Meets.bind ((meets_mayFail quiet).bind fun _ => Meets.step
      (Q := fun _ w => World.At w (now.requeued id)) (fun w here => ?_) fun w here =>
        requeueRow_at here id) fun _ => tail
    refine ⟨.requeued id rfl ?_, rfl, List.prefix_refl _, Nat.le_refl _⟩
    rw [here.store]
    exact due id List.mem_cons_self

theorem expiredLeases_meets (time : String) {w : World} (inv : Inv w) :
    Meets (Statement .main) (·.At w.snapshot) (jobRequeueExpiredLeases time) (fun _ _ => True) := by
  have quiet : ∀ w w' : World, w.Quiet w' → Statement .main w w' ∧ Confined w w' :=
    fun w w' same => ⟨.ofQuiet w w' same, .ofQuiet w w' same⟩
  refine (meets_mayFail Statement.ofQuiet).bind fun _ => atomic_meets (fun _ _ => .calm) ?_
  refine Meets.bind (Q := fun _ _ => True) ?_ fun _ =>
    (Silent.mayFail.always quiet).bind fun _ => Meets.pure fun _ _ => trivial
  refine (meets_query quiet _).bind fun ids => meets_from fun _ ⟨here, found⟩ => ⟨_, here, ?_⟩
  subst found
  refine Meets.bind (requeueAll_meets ?_ fun id member => ?_) fun _ => Meets.pure fun _ _ => trivial
  · exact inv.jobsOnce.sublist (List.filter_sublist.map _)
  · obtain ⟨j, due, same⟩ := List.mem_map.mp member
    obtain ⟨stored, expired⟩ := List.mem_filter.mp due
    have facts := of_decide_eq_true expired
    exact ⟨j, stored, same, facts.2⟩

theorem cancelCell_plain : Plain .main (locked (cancelCell cell)) := by
  refine .locked fun w _ => Meets.weaken (P := fun _ => True) (fun _ _ => trivial) (fun _ _ h => h) ?_
  refine Meets.bind (Calmly.of_silent (.readMemory _)).statements fun there => ?_
  refine Meets.bind (Q := fun _ w => w.memory.scheduler.engine cell = none)
    (Meets.step (fun _ _ => .calm (.stopped cell)) fun _ _ => lookup_without _) fun _ => ?_
  have event : ∀ draft, Meets (fun w w' => Statement .main w w' ∧ Confined w w') (fun _ => True)
      (append draft : Act _) (fun _ _ => True) :=
    fun draft => meets_from fun w _ => ⟨_, w.at_snapshot, (meets_append (fun w w' same =>
      ⟨.ofQuiet w w' same, .ofQuiet w w' same⟩) fun w _ => ⟨.calm (.event draft), rfl,
        List.prefix_append _ _, Nat.le_refl _⟩).weaken (fun _ h => h) fun _ _ _ => trivial⟩
  refine Meets.bind (Q := fun _ w => w.memory.scheduler.engine cell = none) ?_ fun _ =>
    Meets.step (fun _ absent => .dropped cell rfl absent) fun _ _ => trivial
  refine Meets.ite (fun _ => Meets.bind (Q := fun _ w => w.memory.scheduler.engine cell = none) ?_
    fun _ => Meets.pure fun _ h => h) fun _ => Meets.pure fun _ h => h
  refine (((event _).keep fun _ _ step absent => ?_).mono fun _ _ step => step.1).weaken
    (fun _ h => ⟨trivial, h⟩) fun _ _ h => h.2
  rw [step.2.memory]; exact absent

theorem drainCancels_plain : Plain .main drainCancels :=
  .bind (.calmly (Meets.step (fun _ _ => .cancels []) fun _ _ => trivial)) fun _ =>
    .forM fun _ => cancelCell_plain

theorem inFlightKeys_plain : Plain .main (locked inFlightKeys) :=
  .silent (.bind (.readOutside _) fun _ => .readMemory _)

theorem tick_plain : Plain .main tick := by
  refine .bind (.silent (.bind .nowRfc3339 fun _ => .bind .nowMs fun _ => .pure _)) fun times => ?_
  refine .bind drainCancels_plain fun _ => .bind (.locked fun _ good => expiredLeases_meets _ good.1)
    fun _ => ?_
  refine .bind inFlightKeys_plain fun existing => .bind (.forM fun _ => drainTurn_plain) fun _ => ?_
  refine .bind inFlightKeys_plain fun still => .bind (.forM fun _ => checkDeathAndTimeout_plain)
    fun _ => .bind startTurns_plain fun _ => .bind inFlightKeys_plain fun fresh => .forM fun _ => ?_
  split
  · exact .pure
  · exact drainTurn_plain

end Tick
end Crewd.Fabric
