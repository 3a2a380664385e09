import Mathlib.Data.List.Nodup
import Crewd.Fabric.Steps

/-! The invariant of the tables and the turns in flight, kept by every elementary
step, and what the steps of the other actors leave to the scheduler. -/
namespace Crewd.Fabric
open Autocommit Concurrent Table

variable {id : String}

def HasThread (st : Store) (id cell : String) : Prop :=
  ∃ t ∈ st.threads, t.crewdThreadId = id ∧ t.cellName = cell

def SpawnRow.key (row : SpawnRow) : String × String × String :=
  (row.caller, row.cellName, row.idempotencyKey)

structure Inv (w : World) : Prop where
  threadsOnce : (w.store.threads.map (·.crewdThreadId)).Nodup
  jobsOnce : (w.store.jobs.map (·.jobId)).Nodup
  requestsOnce : (w.store.spawnRequests.map SpawnRow.key).Nodup
  requestThreads : (w.store.spawnRequests.map (·.crewdThreadId)).Nodup
  requestLinked : ∀ r ∈ w.store.spawnRequests, HasThread w.store r.crewdThreadId r.cellName
  jobLinked : ∀ j ∈ w.store.jobs, HasThread w.store j.crewdThreadId j.cellName
  held : ∀ j ∈ w.store.jobs, j.state = .leased ∨ j.state = .started → j.leaseExpiresAt.isSome
  spent : ∀ id, Spent id w.history → (∃ j ∈ w.store.jobs, j.jobId = id) ∧
    ∀ j ∈ w.store.jobs, j.jobId = id → j.state ≠ .queued
  flying : ∀ entry ∈ w.memory.scheduler.inFlight, HasThread w.store entry.1 entry.2.cell
  turnsOnce : (w.memory.scheduler.inFlight.map (·.1)).Nodup

section Rows
variable {st : Store}

theorem thread_of_find (found : st.thread id = some t) : t ∈ st.threads ∧ t.crewdThreadId = id :=
  ⟨List.mem_of_find?_eq_some found, by simpa using List.find?_some found⟩

theorem job_of_find (found : st.job id = some j) : j ∈ st.jobs ∧ j.jobId = id :=
  ⟨List.mem_of_find?_eq_some found, by simpa using List.find?_some found⟩

theorem mem_updateThread {f : CellThread → CellThread} :
    t ∈ (st.updateThread id f).threads ↔
      ∃ old ∈ st.threads, t = if old.crewdThreadId = id then f old else old := by
  simp [Store.updateThread, mem_updateWhere]

theorem mem_updateJob {f : CellJob → CellJob} :
    j ∈ (st.updateJob id f).jobs ↔ ∃ old ∈ st.jobs, j = if old.jobId = id then f old else old := by
  simp [Store.updateJob, mem_updateWhere]

theorem HasThread.updated {f : CellThread → CellThread} {changed : String}
    (keeps : ∀ t, (f t).crewdThreadId = t.crewdThreadId ∧ (f t).cellName = t.cellName)
    (has : HasThread st id cell) : HasThread (st.updateThread changed f) id cell := by
  obtain ⟨t, member, rfl, rfl⟩ := has
  refine ⟨if t.crewdThreadId = changed then f t else t, mem_updateThread.mpr ⟨t, member, rfl⟩, ?_⟩
  split
  · exact keeps t
  · exact ⟨rfl, rfl⟩

/-- The rows of one identifier are one row. -/
theorem Inv.job_unique (inv : Inv w) (first : j ∈ w.store.jobs) (second : j' ∈ w.store.jobs)
    (same : j.jobId = j'.jobId) : j = j' :=
  List.inj_on_of_nodup_map inv.jobsOnce first second same

theorem Inv.thread_unique (inv : Inv w) (first : t ∈ w.store.threads)
    (second : t' ∈ w.store.threads) (same : t.crewdThreadId = t'.crewdThreadId) : t = t' :=
  List.inj_on_of_nodup_map inv.threadsOnce first second same

theorem Inv.thread_found (inv : Inv w) (stored : t ∈ w.store.threads) :
    w.store.thread t.crewdThreadId = some t := by
  cases found : w.store.thread t.crewdThreadId with
  | none =>
    have absent := List.find?_eq_none.mp found t stored
    exact absurd (decide_eq_true rfl) absent
  | some t' =>
    obtain ⟨stored', named⟩ := thread_of_find found
    rw [inv.thread_unique stored' stored named]

/-- The rows of one request are one row. -/
theorem Inv.request_unique (inv : Inv w) {caller cellName key : String}
    (first : row ∈ w.store.spawnRequests) (second : row' ∈ w.store.spawnRequests)
    (is : row.is caller cellName key = true) (is' : row'.is caller cellName key = true) :
    row = row' := by
  apply List.inj_on_of_nodup_map inv.requestsOnce first second
  obtain ⟨rfl, rfl, rfl⟩ := of_decide_eq_true is
  obtain ⟨c, n, k⟩ := of_decide_eq_true is'
  simp [SpawnRow.key, c, n, k]

end Rows

namespace Inv

theorem initial (empty : w.store = .empty) (unmarked : w.history = [])
    (idle : w.memory.scheduler.inFlight = []) : Inv w := by
  constructor <;> simp [empty, unmarked, idle, Store.empty, Spent]

/-- Steps that leave threads, jobs and requests alone. -/
theorem frame (inv : Inv w) (threads : w'.store.threads = w.store.threads)
    (jobs : w'.store.jobs = w.store.jobs)
    (requests : w'.store.spawnRequests = w.store.spawnRequests)
    (spent : ∀ id, Spent id w'.history → Spent id w.history)
    (flying : ∀ entry ∈ w'.memory.scheduler.inFlight, HasThread w.store entry.1 entry.2.cell)
    (turns : (w'.memory.scheduler.inFlight.map (·.1)).Nodup) : Inv w' := by
  have has : ∀ {id cell}, HasThread w.store id cell → HasThread w'.store id cell := by
    intro id cell
    rw [HasThread, HasThread, threads]
    exact fun h => h
  constructor
  · rw [threads]; exact inv.threadsOnce
  · rw [jobs]; exact inv.jobsOnce
  · rw [requests]; exact inv.requestsOnce
  · rw [requests]; exact inv.requestThreads
  · rw [requests]; exact fun r h => has (inv.requestLinked r h)
  · rw [jobs]; exact fun j h => has (inv.jobLinked j h)
  · rw [jobs]; exact inv.held
  · rw [jobs]; exact fun id h => inv.spent id (spent id h)
  · exact fun entry h => has (flying entry h)
  · exact turns

theorem updatedThread (inv : Inv w) {f : CellThread → CellThread}
    (keeps : ∀ t, (f t).crewdThreadId = t.crewdThreadId ∧ (f t).cellName = t.cellName)
    (spent : ∀ id, Spent id history → Spent id w.history) :
    Inv { w with store := w.store.updateThread id f, history := history } := by
  constructor
  · show ((updateWhere _ _ _).map _).Nodup
    rw [map_updateWhere fun t _ _ => (keeps t).1]
    exact inv.threadsOnce
  · exact inv.jobsOnce
  · exact inv.requestsOnce
  · exact inv.requestThreads
  · exact fun r h => (inv.requestLinked r h).updated keeps
  · exact fun j h => (inv.jobLinked j h).updated keeps
  · exact inv.held
  · exact fun id h => inv.spent id (spent id h)
  · exact fun entry h => (inv.flying entry h).updated keeps
  · exact inv.turnsOnce

theorem updatedJob (inv : Inv w) {f : CellJob → CellJob}
    (keeps : ∀ j, (f j).jobId = j.jobId ∧ (f j).crewdThreadId = j.crewdThreadId ∧
      (f j).cellName = j.cellName)
    (held : ∀ j ∈ w.store.jobs, j.jobId = id → (f j).state = .leased ∨ (f j).state = .started →
      (f j).leaseExpiresAt.isSome)
    (spent : ∀ other, Spent other history → Spent other w.history ∧
      (other = id → ∀ j ∈ w.store.jobs, j.jobId = id → j.state ≠ .queued → (f j).state ≠ .queued)) :
    Inv { w with store := w.store.updateJob id f, history := history } := by
  constructor
  · exact inv.threadsOnce
  · show ((updateWhere _ _ _).map _).Nodup
    rw [map_updateWhere fun j _ _ => (keeps j).1]
    exact inv.jobsOnce
  · exact inv.requestsOnce
  · exact inv.requestThreads
  · exact inv.requestLinked
  · intro j h
    obtain ⟨old, member, rfl⟩ := mem_updateJob.mp h
    split
    · rw [(keeps old).2.1, (keeps old).2.2]; exact inv.jobLinked old member
    · exact inv.jobLinked old member
  · intro j h
    obtain ⟨old, member, rfl⟩ := mem_updateJob.mp h
    split
    · rename_i same; exact held old member same
    · exact inv.held old member
  · intro other h
    obtain ⟨before, own⟩ := spent other h
    obtain ⟨⟨j, member, same⟩, unqueued⟩ := inv.spent other before
    constructor
    · refine ⟨if j.jobId = id then f j else j, mem_updateJob.mpr ⟨j, member, rfl⟩, ?_⟩
      split
      · rw [(keeps j).1]; exact same
      · exact same
    · intro j' h' same'
      obtain ⟨old, member', rfl⟩ := mem_updateJob.mp h'
      split at same'
      · rename_i here
        rw [(keeps old).1] at same'
        rw [if_pos here]
        exact own (same'.symm.trans here) old member' here (unqueued old member' same')
      · rename_i apart
        rw [if_neg apart]
        exact unqueued old member' same'
  · exact inv.flying
  · exact inv.turnsOnce

/-- The state of a row is written, and it does not become queued. -/
theorem setState (inv : Inv w) {row : CellJob} {state : JobState}
    (held : state = .leased ∨ state = .started → row ∈ w.store.jobs ∧ row.leaseExpiresAt.isSome)
    (unqueued : state ≠ .queued) : Inv (writeRow w row (.setState state) state) := by
  apply inv.updatedJob (f := .setState state) (fun _ => ⟨rfl, rfl, rfl⟩)
  · intro j member same states
    obtain ⟨stored, leased⟩ := held states
    rw [inv.job_unique member stored same]
    exact leased
  · exact fun other spent => ⟨spent, fun _ _ _ _ _ => unqueued⟩

/-- A new job of a thread that there is. -/
theorem enqueued (inv : Inv w) {job : CellJob} (queued : job.state = .queued)
    (fresh : ∀ j ∈ w.store.jobs, j.jobId ≠ job.jobId)
    (linked : HasThread w.store job.crewdThreadId job.cellName) :
    Inv { w with store := { w.store with jobs := w.store.jobs ++ [job] } } := by
  constructor
  · exact inv.threadsOnce
  · simp only [List.map_append, List.map_cons, List.map_nil]
    refine List.nodup_append.mpr ⟨inv.jobsOnce, List.nodup_singleton _, ?_⟩
    simpa using fresh
  · exact inv.requestsOnce
  · exact inv.requestThreads
  · exact inv.requestLinked
  · intro j h
    rcases List.mem_append.mp h with old | new
    · exact inv.jobLinked j old
    · rw [List.mem_singleton.mp new]; exact linked
  · intro j h
    rcases List.mem_append.mp h with old | new
    · exact inv.held j old
    · rw [List.mem_singleton.mp new, queued]; simp
  · intro id h
    obtain ⟨⟨j, member, same⟩, unqueued⟩ := inv.spent id h
    refine ⟨⟨j, List.mem_append_left _ member, same⟩, fun j' h' same' => ?_⟩
    rcases List.mem_append.mp h' with old | new
    · exact unqueued j' old same'
    · rw [List.mem_singleton.mp new] at same'
      exact absurd (same.trans same'.symm) (fresh j member)
  · exact inv.flying
  · exact inv.turnsOnce

/-- A new thread under its request. -/
theorem requested (inv : Inv w) {row : SpawnRow} {thread : CellThread} (locks : List String)
    (request : ∀ r ∈ w.store.spawnRequests,
      r.is row.caller row.cellName row.idempotencyKey = false)
    (fresh : ∀ t ∈ w.store.threads, t.crewdThreadId ≠ thread.crewdThreadId)
    (sameThread : row.crewdThreadId = thread.crewdThreadId)
    (sameCell : row.cellName = thread.cellName) :
    Inv { w with store := { w.store with
      cellLocks := locks
      spawnRequests := w.store.spawnRequests ++ [row]
      threads := w.store.threads ++ [thread] } } := by
  have has : ∀ {id cell}, HasThread w.store id cell → HasThread { w.store with
      cellLocks := locks
      spawnRequests := w.store.spawnRequests ++ [row]
      threads := w.store.threads ++ [thread] } id cell :=
    fun ⟨t, member, same⟩ => ⟨t, List.mem_append_left _ member, same⟩
  constructor
  · simp only [List.map_append, List.map_cons, List.map_nil]
    refine List.nodup_append.mpr ⟨inv.threadsOnce, List.nodup_singleton _, ?_⟩
    simpa using fresh
  · exact inv.jobsOnce
  · simp only [List.map_append, List.map_cons, List.map_nil]
    refine List.nodup_append.mpr ⟨inv.requestsOnce, List.nodup_singleton _, ?_⟩
    intro key member key' single same
    obtain ⟨r, known, rfl⟩ := List.mem_map.mp member
    rw [List.mem_singleton.mp single] at same
    have other := request r known
    simp only [SpawnRow.key, Prod.mk.injEq] at same
    simp [SpawnRow.is, same] at other
  · simp only [List.map_append, List.map_cons, List.map_nil]
    refine List.nodup_append.mpr ⟨inv.requestThreads, List.nodup_singleton _, ?_⟩
    intro id member id' single same
    obtain ⟨r, known, rfl⟩ := List.mem_map.mp member
    obtain ⟨t, stored, linked, _⟩ := inv.requestLinked r known
    rw [List.mem_singleton.mp single, sameThread] at same
    exact fresh t stored (linked.trans same)
  · intro r h
    rcases List.mem_append.mp h with old | new
    · exact has (inv.requestLinked r old)
    · rw [List.mem_singleton.mp new]
      exact ⟨thread, List.mem_append_right _ List.mem_cons_self, sameThread.symm, sameCell.symm⟩
  · exact fun j h => has (inv.jobLinked j h)
  · exact inv.held
  · exact inv.spent
  · exact fun entry h => has (inv.flying entry h)
  · exact inv.turnsOnce

end Inv

/-- The turns in flight are left alone. -/
theorem Calm.inFlight (step : Calm w w') :
    w'.memory.scheduler.inFlight = w.memory.scheduler.inFlight := by
  cases step with
  | quiet same => rw [same.memory]
  | _ => rfl

/-- A poll leaves tables and turns in flight alone. -/
theorem poll_leaves (turn : InFlightTurn) (w : World) : ((poll turn).exec w).2.store = w.store ∧
    ((poll turn).exec w).2.memory.scheduler.inFlight = w.memory.scheduler.inFlight := by
  simp only [poll, Action.exec_step]
  split <;> exact ⟨rfl, rfl⟩

/-- What looks past the marks of a poll finds the same after it. -/
theorem poll_unseen {β : Type} {f : List Mark → β}
    (past : ∀ turn tag event earlier, f (.polled turn tag event :: earlier) = f earlier)
    (turn : InFlightTurn) (w : World) : f ((poll turn).exec w).2.history = f w.history := by
  have unseen : ∀ (events : List (Nat × EngineEvent)) history, f ((events.map fun event =>
      Mark.polled turn.turn event.1 event.2).reverse ++ history) = f history := by
    intro events
    induction events with
    | nil => exact fun _ => rfl
    | cons event rest ih =>
      intro history
      simp only [List.map_cons, List.reverse_cons, List.append_assoc, List.singleton_append]
      exact (ih _).trans (past _ _ _ _)
  simp only [poll, Action.exec_step]
  split
  · rfl
  · exact unseen _ _

theorem Calm.spent (step : Calm w w') : Spent id w'.history ↔ Spent id w.history := by
  cases step with
  | quiet same => rw [same.history]
  | _ => rfl

theorem Calm.inv (step : Calm w w') (inv : Inv w) : Inv w' := by
  have spent : ∀ id, Spent id w'.history → Spent id w.history := fun _ => step.spent.mp
  have flying : ∀ entry ∈ w'.memory.scheduler.inFlight, HasThread w.store entry.1 entry.2.cell := by
    rw [step.inFlight]; exact inv.flying
  have turns : (w'.memory.scheduler.inFlight.map (·.1)).Nodup := by
    rw [step.inFlight]; exact inv.turnsOnce
  cases step with
  | quiet same =>
    exact inv.frame (by rw [same.store]) (by rw [same.store]) (by rw [same.store]) spent flying turns
  | columns id f keeps _ => exact inv.updatedThread (fun t => ⟨(keeps t).1, (keeps t).2.1⟩) spent
  | moved id now t target _ _ _ => exact inv.updatedThread (fun _ => ⟨rfl, rfl⟩) spent
  | spawned locks row thread job spawns =>
    refine (inv.requested locks spawns.request spawns.threadNew spawns.rowThread
      spawns.rowCell).enqueued spawns.enqueues.queued spawns.enqueues.fresh ?_
    exact ⟨thread, List.mem_append_right _ List.mem_cons_self, spawns.jobThread.symm,
      spawns.jobCell.symm⟩
  | enqueued job enqueues linked => exact inv.enqueued enqueues.queued enqueues.fresh linked
  | cancelled row _ _ => exact inv.setState (fun states => by simp at states) (by simp)
  | accepted id now engineTurnId =>
    exact inv.updatedJob (fun _ => ⟨rfl, rfl, rfl⟩) (fun j h _ => inv.held j h)
      fun other h => ⟨h, fun _ _ _ _ unqueued => unqueued⟩
  | _ => exact inv.frame rfl rfl rfl spent flying turns

private theorem map_alter {f : InFlightTurn → InFlightTurn}
    (entries : List (String × InFlightTurn)) :
    (alter id f entries).map (·.1) = entries.map (·.1) := by
  rw [alter, List.map_map]
  refine List.map_congr_left fun entry _ => ?_
  simp only [Function.comp_apply]
  split <;> rfl

theorem Statement.inv (step : Statement self w w') (inv : Inv w) : Inv w' := by
  have landed : ∀ threadId, Inv { w with memory := w.memory.schedule (·.land threadId) } := by
    refine fun threadId => inv.frame rfl rfl rfl (fun _ h => h) (fun entry h => ?_) ?_
    · exact inv.flying entry (mem_without.mp h).1
    · exact inv.turnsOnce.sublist (List.filter_sublist.map _)
  cases step with
  | calm step => exact step.inv inv
  | polled threadId turn _ _ =>
    obtain ⟨store, inFlight⟩ := poll_leaves turn w
    apply inv.frame
    · rw [store]
    · rw [store]
    · rw [store]
    · intro id spent
      exact (poll_unseen (f := Spent id) (fun _ _ _ _ => rfl) turn w).mp spent
    · rw [inFlight]
      exact inv.flying
    · rw [inFlight]
      exact inv.turnsOnce
  | applied turn tag event _ _ => exact inv.frame rfl rfl rfl (fun _ h => h) inv.flying inv.turnsOnce
  | leased row expires _ _ _ _ =>
    apply inv.updatedJob (f := .leasedUntil expires) (fun _ => ⟨rfl, rfl, rfl⟩) fun _ _ _ _ => rfl
    exact fun other spent => ⟨spent, fun _ _ _ _ _ => by simp [CellJob.leasedUntil]⟩
  | begun row _ leased _ => exact inv.setState (fun _ => ⟨leased.stored, leased.held⟩) (by simp)
  | running id now t row earlier _ _ _ _ _ =>
    exact inv.updatedThread (fun _ => ⟨rfl, rfl⟩) fun _ spent => spent
  | finished row _ _ _ => exact inv.setState (fun states => by simp at states) (by simp)
  | requeued id _ _ =>
    refine inv.updatedJob (fun _ => ⟨rfl, rfl, rfl⟩) (fun _ _ _ h => ?_) fun other h =>
      ⟨h.2, fun same => absurd same.symm h.1⟩
    simp [CellJob.requeue] at h
  | launched job cell nowNanos ok _ startable _ _ _ =>
    have base : ∀ context, Inv { w with
        history := .started job.jobId job.crewdThreadId cell context w.history.length ok ::
          w.history } := by
      intro context
      refine { inv with spent := fun id h => ?_ }
      rcases h with rfl | before
      · exact ⟨startable.known, fun j member same => (startable.held j member same).1⟩
      · exact inv.spent id before
    cases ok with
    | false => exact (base _).frame rfl rfl rfl (fun _ h => h) inv.flying inv.turnsOnce
    | true =>
      refine (base _).frame rfl rfl rfl (fun _ h => h) (fun entry h => ?_) ?_
      · rcases mem_put.mp h with rfl | ⟨old, _⟩
        · exact startable.thread
        · exact inv.flying entry old
      · refine List.nodup_cons.mpr ⟨fun h => ?_, inv.turnsOnce.sublist (List.filter_sublist.map _)⟩
        obtain ⟨entry, member, same⟩ := List.mem_map.mp h
        exact (mem_without.mp member).2 same
  | made cell kind threadId _ _ _ => exact inv.frame rfl rfl rfl (fun _ h => h) inv.flying inv.turnsOnce
  | attached thread cell f _ _ _ _ => exact inv.frame rfl rfl rfl (fun _ h => h) inv.flying inv.turnsOnce
  | persisted id cell f _ keeps _ =>
    exact inv.updatedThread (fun t => ⟨(keeps t).1, (keeps t).2.1⟩) fun _ spent => spent
  | updatedTurn threadId f _ keeps =>
    refine inv.frame rfl rfl rfl (fun _ h => h) (fun entry h => ?_) ?_
    · obtain ⟨old, member, rfl⟩ := mem_alter.mp h
      split
      · rw [(keeps old.2).1]; exact inv.flying old member
      · exact inv.flying old member
    · show ((alter _ _ _).map _).Nodup
      rw [map_alter]; exact inv.turnsOnce
  | landed threadId _ _ => exact landed threadId
  | dropped cell _ _ =>
    exact inv.frame rfl rfl rfl (fun _ h => h) (fun entry h => inv.flying entry (List.mem_filter.mp h).1)
      (inv.turnsOnce.sublist (List.filter_sublist.map _))
  | overdue threadId _ =>
    simp only [takeTurn, Action.exec_step]
    split
    · exact inv
    · exact (landed threadId).frame rfl rfl rfl (fun _ h => h) (landed threadId).flying
        (landed threadId).turnsOnce
  | restarted acl _ =>
    exact inv.frame rfl rfl rfl (fun _ h => h) (fun entry h => by cases h) List.nodup_nil

/-- Updates of job rows that leave the job known and held. -/
theorem Startable.written (startable : Startable job cell w) (id : String) {f : CellJob → CellJob}
    (keeps : ∀ j, (f j).jobId = j.jobId)
    (holds : ∀ j ∈ w.store.jobs, j.jobId = job.jobId → j.state ≠ .queued ∧ j.leaseExpiresAt.isSome →
      (f j).state ≠ .queued ∧ (f j).leaseExpiresAt.isSome) :
    (∃ j ∈ (w.store.updateJob id f).jobs, j.jobId = job.jobId) ∧
      ∀ j ∈ (w.store.updateJob id f).jobs, j.jobId = job.jobId →
        j.state ≠ .queued ∧ j.leaseExpiresAt.isSome := by
  constructor
  · obtain ⟨j, member, same⟩ := startable.known
    refine ⟨_, mem_updateJob.mpr ⟨j, member, rfl⟩, ?_⟩
    split
    · rw [keeps]; exact same
    · exact same
  · intro j h same
    obtain ⟨old, member, rfl⟩ := mem_updateJob.mp h
    split at same
    · rename_i here
      rw [if_pos here]
      rw [keeps] at same
      exact holds old member same (startable.held old member same)
    · rename_i apart
      rw [if_neg apart]
      exact startable.held old member same

/-- What the scheduler has leased stays startable whatever the others do. -/
theorem Startable.calm (startable : Startable job cell w) (step : Calm w w') :
    Startable job cell w' := by
  have unspent : ¬ Spent job.jobId w'.history := fun h => startable.unspent (step.spent.mp h)
  have clear : ∀ entry ∈ w'.memory.scheduler.inFlight, entry.2.cell ≠ cell := by
    rw [step.inFlight]; exact startable.clear
  have threads : ∀ {id f}, (∀ t, (f t).crewdThreadId = t.crewdThreadId ∧ (f t).cellName = t.cellName) →
      HasThread (w.store.updateThread id f) job.crewdThreadId cell :=
    fun keeps => HasThread.updated keeps startable.thread
  cases step with
  | quiet same =>
    refine ⟨?_, ?_, ?_, unspent, clear⟩ <;> rw [same.store]
    · exact startable.thread
    · exact startable.known
    · exact startable.held
  | columns id f keeps _ =>
    exact ⟨threads fun t => ⟨(keeps t).1, (keeps t).2.1⟩, startable.known, startable.held, unspent, clear⟩
  | moved id now t target _ _ _ =>
    exact ⟨threads fun _ => ⟨rfl, rfl⟩, startable.known, startable.held, unspent, clear⟩
  | spawned locks row thread new spawns =>
    obtain ⟨t, known, same⟩ := startable.thread
    obtain ⟨j, stored, named⟩ := startable.known
    refine ⟨⟨t, List.mem_append_left _ known, same⟩, ⟨j, List.mem_append_left _ stored, named⟩,
      fun j' h same' => ?_, unspent, clear⟩
    rcases List.mem_append.mp h with old | fresh
    · exact startable.held j' old same'
    · rw [List.mem_singleton.mp fresh] at same'
      exact absurd (named.trans same'.symm) (spawns.enqueues.fresh j stored)
  | enqueued new enqueues _ =>
    obtain ⟨j, stored, named⟩ := startable.known
    refine ⟨startable.thread, ⟨j, List.mem_append_left _ stored, named⟩, fun j' h same' => ?_,
      unspent, clear⟩
    rcases List.mem_append.mp h with old | added
    · exact startable.held j' old same'
    · rw [List.mem_singleton.mp added] at same'
      exact absurd (named.trans same'.symm) (enqueues.fresh j stored)
  | cancelled row _ _ =>
    obtain ⟨known, held⟩ := startable.written row.jobId (f := .setState .cancelled) (fun _ => rfl)
      fun _ _ _ h => ⟨by simp [CellJob.setState], h.2⟩
    exact ⟨startable.thread, known, held, unspent, clear⟩
  | accepted id now engineTurnId =>
    obtain ⟨known, held⟩ := startable.written id (f := fun j =>
      { j with acceptedByEngineAt := some now, engineTurnId := some engineTurnId })
      (fun _ => rfl) fun _ _ _ h => h
    exact ⟨startable.thread, known, held, unspent, clear⟩
  | _ => exact ⟨startable.thread, startable.known, startable.held, unspent, clear⟩

/-- The thread of a job that can be started has no turn in flight. -/
theorem Startable.unflown (startable : Startable job cell w) (inv : Inv w)
    (flying : entry ∈ w.memory.scheduler.inFlight) : entry.1 ≠ job.crewdThreadId := by
  intro named
  obtain ⟨t, stored, owns, inCell⟩ := inv.flying entry flying
  obtain ⟨t', stored', owns', inCell'⟩ := startable.thread
  have one := inv.thread_unique stored stored' (owns.trans (named.trans owns'.symm))
  rw [one] at inCell
  exact startable.clear entry flying (inCell.symm.trans inCell')

theorem CellJob.fixed_inj {j j' : CellJob} (same : j.fixed = j'.fixed) : j.jobId = j'.jobId ∧
    j.crewdThreadId = j'.crewdThreadId ∧ j.cellName = j'.cellName ∧ j.enqueueSeq = j'.enqueueSeq := by
  simp only [CellJob.fixed, Prod.mk.injEq] at same
  exact ⟨same.1, same.2.1, same.2.2.1, same.2.2.2.2⟩

theorem CellThread.fixed_inj {t t' : CellThread} (same : t.fixed = t'.fixed) :
    t.crewdThreadId = t'.crewdThreadId ∧ t.cellName = t'.cellName ∧ t.launch = t'.launch := by
  simpa only [CellThread.fixed, Prod.mk.injEq] using same

/-- Updates that may cancel a job and change no other state. -/
theorem Leased.updated {st : Store} (leased : Leased st row) {f : CellJob → CellJob}
    (keeps : ∀ j, (f j).fixed = j.fixed ∧ (f j).leaseExpiresAt = j.leaseExpiresAt)
    (states : ∀ j, (f j).state = j.state ∨ (f j).state = .cancelled) :
    ∃ row', Leased (st.updateJob id f) row' ∧ row'.fixed = row.fixed := by
  have back : ∀ j ∈ (st.updateJob id f).jobs, ∃ old ∈ st.jobs, j.fixed = old.fixed ∧
      j.leaseExpiresAt = old.leaseExpiresAt ∧ (j.state = old.state ∨ j.state = .cancelled) := by
    intro j member
    obtain ⟨old, stored, rfl⟩ := mem_updateJob.mp member
    refine ⟨old, stored, ?_⟩
    split
    · exact ⟨(keeps old).1, (keeps old).2, states old⟩
    · exact ⟨rfl, rfl, .inl rfl⟩
  have member : (if row.jobId = id then f row else row) ∈ (st.updateJob id f).jobs :=
    mem_updateJob.mpr ⟨row, leased.stored, rfl⟩
  have same : (if row.jobId = id then f row else row).fixed = row.fixed := by
    split
    · exact (keeps row).1
    · rfl
  have cell := (CellJob.fixed_inj same).2.2.1
  have seq := (CellJob.fixed_inj same).2.2.2
  refine ⟨_, ⟨member, ?_, ?_, ?_, ?_⟩, same⟩
  · split
    · rcases states row with kept | cancelled
      · rw [kept]; exact leased.state
      · exact .inr cancelled
    · exact leased.state
  · split
    · rw [(keeps row).2]; exact leased.held
    · exact leased.held
  · intro j member inCell started
    obtain ⟨old, stored, fixed, _, state⟩ := back j member
    rw [cell, (CellJob.fixed_inj fixed).2.2.1] at inCell
    rcases state with kept | cancelled
    · exact leased.unoccupied old stored inCell (kept.symm.trans started)
    · rw [cancelled] at started
      cases started
  · intro j member inCell queued
    obtain ⟨old, stored, fixed, _, state⟩ := back j member
    rw [cell, (CellJob.fixed_inj fixed).2.2.1] at inCell
    rw [seq, (CellJob.fixed_inj fixed).2.2.2]
    rcases state with kept | cancelled
    · exact leased.first old stored inCell (kept.symm.trans queued)
    · rw [cancelled] at queued
      cases queued

/-- A job that comes to the end of the queue. -/
theorem Leased.enqueued {st st' : Store} (leased : Leased st row) (enqueues : Enqueues st job)
    (added : st'.jobs = st.jobs ++ [job]) : Leased st' row := by
  constructor
  · rw [added]
    exact List.mem_append_left _ leased.stored
  · exact leased.state
  · exact leased.held
  · rw [added]
    intro j member inCell
    rcases List.mem_append.mp member with old | new
    · exact leased.unoccupied j old inCell
    · rw [List.mem_singleton.mp new, enqueues.queued]
      simp
  · rw [added]
    intro j member inCell queued
    rcases List.mem_append.mp member with old | new
    · exact leased.first j old inCell queued
    · rw [List.mem_singleton.mp new] at inCell ⊢
      exact Nat.le_of_lt (enqueues.last row leased.stored inCell.symm)

theorem Leased.calm (leased : Leased w.store row) (step : Calm w w') :
    ∃ row', Leased w'.store row' ∧ row'.fixed = row.fixed := by
  cases step with
  | quiet same => exact ⟨row, by rw [same.store]; exact leased, rfl⟩
  | spawned locks request thread job spawns => exact ⟨row, leased.enqueued spawns.enqueues rfl, rfl⟩
  | enqueued job enqueues _ => exact ⟨row, leased.enqueued enqueues rfl, rfl⟩
  | cancelled other _ _ =>
    exact leased.updated (f := .setState .cancelled) (fun _ => ⟨rfl, rfl⟩) fun _ => .inr rfl
  | accepted id now engineTurnId => exact leased.updated (fun _ => ⟨rfl, rfl⟩) fun _ => .inl rfl
  | _ => exact ⟨row, ⟨leased.stored, leased.state, leased.held, leased.unoccupied, leased.first⟩, rfl⟩

end Crewd.Fabric
