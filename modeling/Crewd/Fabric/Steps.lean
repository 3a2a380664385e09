import Crewd.Fabric.Service
import Crewd.Statements

/-! The elementary steps of the fabric. Most of them every actor may take at any
time; a few belong to the scheduler alone or to a restart. -/
namespace Crewd.Fabric
open Autocommit Concurrent Table

/-- The job was started and has not been requeued since. -/
def Spent (jobId : String) : List Mark → Prop
  | [] => False
  | .started id _ _ _ _ _ :: earlier => id = jobId ∨ Spent jobId earlier
  | .requeued id :: earlier => id ≠ jobId ∧ Spent jobId earlier
  | _ :: earlier => Spent jobId earlier

/-- The job was marked started. -/
def Begun (jobId : String) (history : List Mark) : Prop :=
  ∃ row, Mark.wrote row .started ∈ history ∧ row.jobId = jobId

/-- The job that was leased last. -/
def lastLease (history : List Mark) : Option String :=
  history.findSome? fun
    | .wrote row .leased => some row.jobId
    | _ => none

/-- The thread whose turn the adapter of the cell was prepared for last, since it was
made, and the engine thread that it is on. -/
def useOf (cell : String) : List Mark → Option String × Option String
  | [] => (none, none)
  | .made other context :: earlier => if other = cell then (none, context) else useOf cell earlier
  | .attached id other _ context :: earlier =>
    if other = cell then (some id, context) else useOf cell earlier
  | _ :: earlier => useOf cell earlier

/-- Nothing is in flight on the cell. -/
def Clear (cell : String) (w : World) : Prop :=
  ∀ entry ∈ w.memory.scheduler.inFlight, entry.2.cell ≠ cell

/-- The record of the thread still has the engine thread that was read. -/
def Carries (thread : CellThread) (st : Store) : Prop :=
  ∃ t ∈ st.threads, t.crewdThreadId = thread.crewdThreadId ∧
    t.engineThreadId = thread.engineThreadId

/-- The job can be started: it is leased, nothing was started for it since it was
queued last, and nothing is in flight on its cell. -/
structure Startable (job : CellJob) (cell : String) (w : World) : Prop where
  thread : ∃ t ∈ w.store.threads, t.crewdThreadId = job.crewdThreadId ∧ t.cellName = cell
  known : ∃ j ∈ w.store.jobs, j.jobId = job.jobId
  held : ∀ j ∈ w.store.jobs, j.jobId = job.jobId → j.state ≠ .queued ∧ j.leaseExpiresAt.isSome
  unspent : ¬ Spent job.jobId w.history
  clear : Clear cell w

/-- The columns of a job that no update changes. -/
def CellJob.fixed (j : CellJob) : String × String × String × String × Nat :=
  (j.jobId, j.crewdThreadId, j.cellName, j.payload, j.enqueueSeq)

def CellThread.launch (t : CellThread) : Launch :=
  ⟨t.engineKind, t.model, t.profile, t.cwd, t.worktreePath⟩

/-- The columns of a thread that no update changes. -/
def CellThread.fixed (t : CellThread) : String × String × Launch :=
  (t.crewdThreadId, t.cellName, t.launch)

/-- The row was leased and may have been cancelled since; its cell is not occupied, and
what is queued there comes later. -/
structure Leased (st : Store) (row : CellJob) : Prop where
  stored : row ∈ st.jobs
  state : row.state = .leased ∨ row.state = .cancelled
  held : row.leaseExpiresAt.isSome
  unoccupied : ∀ j ∈ st.jobs, j.cellName = row.cellName → j.state ≠ .started
  first : ∀ j ∈ st.jobs, j.cellName = row.cellName → j.state = .queued →
    row.enqueueSeq ≤ j.enqueueSeq

/-- A job may be leased: its cell is not occupied, and it is the head of the queue. -/
structure Leases (st : Store) (row : CellJob) : Prop where
  unoccupied : ∀ j ∈ st.jobs, j.cellName = row.cellName → j.state ≠ .started
  head : ∀ j ∈ st.jobs, j.cellName = row.cellName → j.state = .queued →
    row.enqueueSeq ≤ j.enqueueSeq

/-- The turn was taken note of as over: its engine is gone, or its end was read. -/
def Over (turn : InFlightTurn) (w : World) : Prop :=
  w.memory.scheduler.engine turn.cell = none ∨
    ∃ tag event, event.terminal = true ∧ Mark.polled turn.turn tag event ∈ w.history

/-- A new job at the end of the queue of its cell, which had room for it. -/
structure Enqueues (st : Store) (job : CellJob) : Prop where
  queued : job.state = .queued
  fresh : ∀ j ∈ st.jobs, j.jobId ≠ job.jobId
  last : ∀ j ∈ st.jobs, j.cellName = job.cellName → j.enqueueSeq < job.enqueueSeq
  room : st.activeCount job.cellName < queueDepthDefault

/-- A thread in state `spawning` with its request and its first job. -/
structure Spawns (st : Store) (row : SpawnRow) (thread : CellThread) (job : CellJob) : Prop where
  valid : validateCellNameAllowingEphemeral row.cellName = .ok () ∧
    validateIdempotencyKey row.idempotencyKey = .ok ()
  request : ∀ r ∈ st.spawnRequests, r.is row.caller row.cellName row.idempotencyKey = false
  free : ∀ t ∈ st.threads, t.cellName = thread.cellName → t.state.active = false
  threadNew : ∀ t ∈ st.threads, t.crewdThreadId ≠ thread.crewdThreadId
  enqueues : Enqueues st job
  state : thread.state = .spawning
  rowThread : row.crewdThreadId = thread.crewdThreadId
  rowCell : row.cellName = thread.cellName
  jobThread : job.crewdThreadId = thread.crewdThreadId
  jobCell : job.cellName = thread.cellName
  unattached : thread.engineThreadId = none

def Store.spawn (st : Store) (locks : List String) (row : SpawnRow) (thread : CellThread)
    (job : CellJob) : Store :=
  { st with
    cellLocks := locks
    spawnRequests := st.spawnRequests ++ [row]
    threads := st.threads ++ [thread]
    jobs := st.jobs ++ [job] }

/-- The request of the call is stored, and the call says whether it stored it. -/
structure Recorded (w : World) (call : Spawned) : Prop where
  row : ∃ r ∈ w.store.spawnRequests,
    r.is call.caller call.target.cellName call.idempotencyKey = true ∧
      r.crewdThreadId = call.crewdThreadId
  first : call.replayed = false → call.threads = 1 ∧ call.jobs = 1 ∧
    ∀ task earlier, Mark.spawned task earlier ∈ w.history →
      ¬ (earlier.caller = call.caller ∧ earlier.target.cellName = call.target.cellName ∧
        earlier.idempotencyKey = call.idempotencyKey)
  replay : call.replayed = true → call.threads = 0 ∧ call.jobs = 0

/-- What keeps the adapter's queue, the turns it was asked to run and its process. -/
def Attribute (f : Engine → Engine) : Prop :=
  ∀ e, (f e).outbox = e.outbox ∧ (f e).started = e.started ∧ (f e).up = e.up

/-- What leaves the engine thread of the adapter, or puts it on the thread's own. -/
def Resumes (thread : CellThread) (f : Engine → Engine) : Prop :=
  Attribute f ∧ ∀ e, (f e).engineThreadId = e.engineThreadId ∨
    thread.engineThreadId ≠ none ∧ (f e).engineThreadId = thread.engineThreadId

/-- Updates of other columns than the identity, the cell and the state of a thread. -/
def Column (f : CellThread → CellThread) : Prop :=
  ∀ t, (f t).crewdThreadId = t.crewdThreadId ∧ (f t).cellName = t.cellName ∧
    (f t).state = t.state

/-- The thread flies on the cell, and the update stores the engine thread of its adapter. -/
def Persists (id cell : String) (f : CellThread → CellThread) (w : World) : Prop :=
  (∃ turn, (id, turn) ∈ w.memory.scheduler.inFlight ∧ turn.cell = cell) ∧
    ∀ t, (f t).engineThreadId =
      (((w.memory.scheduler.engine cell).bind (·.engineThreadId)) <|> t.engineThreadId)

def CellThread.movedTo (target : ThreadState) (now : String) (t : CellThread) : CellThread :=
  { t with state := target, updatedAt := now }

/-- The state of a thread, or of a job row, is written and marked. -/
def moveThread (w : World) (id now : String) (source target : ThreadState) : World := { w with
  store := w.store.updateThread id (CellThread.movedTo target now)
  history := .moved id source target (w.store.alone id) :: w.history }

def writeRow (w : World) (row : CellJob) (f : CellJob → CellJob) (state : JobState) : World :=
  { w with store := w.store.updateJob row.jobId f, history := .wrote row state :: w.history }

inductive Calm : World → World → Prop where
  | quiet : w.Quiet w' → Calm w w'
  | event (draft) : Calm w { w with audit := w.audit ++ [draft] }
  | cells (c) : Calm w { w with store := { w.store with cells := c } }
  | journal (row : JournalRow) (event : EngineEvent) : row.line = event.line →
      row.seq = w.store.nextJournalSeq row.threadId → Calm w ((writeLine row event).exec w).2
  | columns (id : String) (f) : Column f → (∀ t, (f t).engineThreadId = t.engineThreadId) →
      Calm w { w with store := w.store.updateThread id f }
  | moved (id now : String) (t : CellThread) (target : ThreadState) :
      w.store.thread id = some t → transitionAllowed t.state target = true → target ≠ .running →
      Calm w (moveThread w id now t.state target)
  | spawned (locks row thread job) : Spawns w.store row thread job →
      Calm w { w with store := w.store.spawn locks row thread job }
  | recorded (task : Nat) (call : Spawned) : Recorded w call →
      Calm w { w with history := .spawned task call :: w.history }
  | enqueued (job : CellJob) : Enqueues w.store job →
      (∃ t ∈ w.store.threads, t.crewdThreadId = job.crewdThreadId ∧ t.cellName = job.cellName) →
      Calm w { w with store := { w.store with jobs := w.store.jobs ++ [job] } }
  | cancelled (row : CellJob) : row ∈ w.store.jobs → row.state.active = true →
      Calm w (writeRow w row (.setState .cancelled) .cancelled)
  | accepted (id now engineTurnId : String) :
      Calm w { w with store := w.store.updateJob id fun j => { j with
        acceptedByEngineAt := some now, engineTurnId := some engineTurnId } }
  | cancels (c : List String) : Calm w { w with memory := { w.memory with cancels := c } }
  | backoff (b) : Calm w { w with memory := w.memory.schedule fun s => { s with backoffStep := b } }
  | stopped (cell : String) : Calm w { w with
      memory := w.memory.schedule (·.stop cell), history := .stopped cell :: w.history }
  | died (cell : String) : Calm w { w with
      memory := w.memory.schedule (·.updateEngine cell fun e => { e with up := false })
      history := .died cell (idle cell w) :: w.history }
  | adapted (cell : String) (f) : Attribute f → (∀ e, (f e).engineThreadId = e.engineThreadId) →
      Calm w { w with memory := w.memory.schedule (·.updateEngine cell f) }
  | emitted (cell : String) (turn : Nat) (event : EngineEvent) :
      w.memory.scheduler.emits cell turn = true →
      Calm w { w with
        memory := w.memory.schedule (·.updateEngine cell fun e =>
          { e with outbox := e.outbox ++ [(turn, event)] })
        history := .emitted turn event :: w.history }

inductive Statement (self : Actor) : World → World → Prop where
  | calm : Calm w w' → Statement self w w'
  | polled (threadId : String) (turn : InFlightTurn) : self = .main →
      w.memory.scheduler.turn threadId = some turn → Statement self w ((poll turn).exec w).2
  | applied (turn tag : Nat) (event : EngineEvent) : self = .main →
      Mark.polled turn tag event ∈ w.history →
      Statement self w { w with history := .applied turn tag event w.failing :: w.history }
  | leased (row : CellJob) (expires : String) : self = .main → row ∈ w.store.jobs →
      row.state = .queued → Leases w.store row →
      Statement self w (writeRow w row (.leasedUntil expires) .leased)
  | begun (row : CellJob) : self = .main → Leased w.store row →
      lastLease w.history = some row.jobId →
      Statement self w (writeRow w row (.setState .started) .started)
  | running (id now : String) (t : CellThread) (row : CellJob) (earlier : List Mark) :
      self = .main → w.store.thread id = some t → transitionAllowed t.state .running = true →
      w.history = .wrote row .started :: earlier → row.crewdThreadId = id →
      Statement self w (moveThread w id now t.state .running)
  | finished (row : CellJob) : self = .main → row ∈ w.store.jobs → Begun row.jobId w.history →
      Statement self w (writeRow w row (.setState .finished) .finished)
  | requeued (id : String) : self = .main →
      (∃ j ∈ w.store.jobs, j.jobId = id ∧ j.unaccepted = true) →
      Statement self w ((requeueRow id).exec w).2
  | launched (job : CellJob) (cell : String) (nowNanos : Nat) (ok : Bool) : self = .main →
      Startable job cell w → Begun job.jobId w.history →
      (w.memory.scheduler.engine cell).isSome →
      (useOf cell w.history).1 = some job.crewdThreadId →
      Statement self w ((launchTurn cell job.crewdThreadId job.jobId nowNanos ok).exec w).2
  | made (cell : String) (kind : EngineKind) (threadId : Option String) : self = .main →
      w.memory.scheduler.engine cell = none → Clear cell w →
      Statement self w ((makeAdapter cell kind threadId).exec w).2
  | attached (thread : CellThread) (cell : String) (f : Engine → Engine) : self = .main →
      Clear cell w → Carries thread w.store → Resumes thread f →
      Statement self w ((attach cell thread f).exec w).2
  | persisted (id cell : String) (f : CellThread → CellThread) : self = .main → Column f →
      Persists id cell f w → Statement self w { w with store := w.store.updateThread id f }
  | updatedTurn (threadId : String) (f : InFlightTurn → InFlightTurn) : self = .main →
      (∀ t, (f t).cell = t.cell ∧ (f t).turn = t.turn ∧ (f t).jobId = t.jobId) →
      Statement self w { w with memory := w.memory.schedule (·.updateTurn threadId f) }
  | landed (threadId : String) : self = .main →
      (∀ turn, (threadId, turn) ∈ w.memory.scheduler.inFlight → Over turn w) →
      Statement self w { w with memory := w.memory.schedule (·.land threadId) }
  | dropped (cell : String) : self = .main → w.memory.scheduler.engine cell = none →
      Statement self w { w with memory := w.memory.schedule (·.dropCell cell) }
  | overdue (threadId : String) : self = .main →
      Statement self w ((takeTurn threadId).exec w).2
  | restarted (acl : Acl) : self = .restart →
      Statement self w { w with memory := .new acl, history := .restarted :: w.history }

end Crewd.Fabric
