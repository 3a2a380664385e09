import Mathlib.Data.List.Sort
import Mathlib.Data.List.Dedup
import Crewd.Lib.Table
import Crewd.World
import Crewd.Acl

/-! Tables of the cell fabric: registered cells, threads, the job queue of each cell,
spawn requests, worktrees and the thread journal, with the store operations on them. -/
namespace Crewd.Fabric
open Autocommit Table

inductive EngineKind where
  | codex
  | claude
  | pi
  | fake
deriving DecidableEq, Repr

def EngineKind.asStr : EngineKind → String
  | codex => "codex"
  | claude => "claude"
  | pi => "pi"
  | fake => "fake"

def EngineKind.fromDbStr : String → Option EngineKind
  | "codex" => some .codex
  | "claude" => some .claude
  | "pi" => some .pi
  | "fake" => some .fake
  | _ => none

theorem EngineKind.fromDbStr_asStr (kind : EngineKind) : fromDbStr kind.asStr = some kind := by
  cases kind <;> rfl

structure CellDef where
  name : String
  engine : EngineKind
  model : Option String
  profile : Option String
  cwd : String
  worktreeDefault : Bool
  memoryDevice : Option String
  createdAt : String
deriving DecidableEq, Repr

inductive ThreadState where
  | spawning
  | running
  | idle
  | interrupted
  | timeout
  | failedUnknown
  | done
deriving DecidableEq, Repr

def ThreadState.debug : ThreadState → String
  | spawning => "Spawning"
  | running => "Running"
  | idle => "Idle"
  | interrupted => "Interrupted"
  | timeout => "Timeout"
  | failedUnknown => "FailedUnknown"
  | done => "Done"

def ThreadState.asStr : ThreadState → String
  | spawning => "spawning"
  | running => "running"
  | idle => "idle"
  | interrupted => "interrupted"
  | timeout => "timeout"
  | failedUnknown => "failed_unknown"
  | done => "done"

def ThreadState.fromDbStr : String → Option ThreadState
  | "spawning" => some .spawning
  | "running" => some .running
  | "idle" => some .idle
  | "interrupted" => some .interrupted
  | "timeout" => some .timeout
  | "failed_unknown" => some .failedUnknown
  | "done" => some .done
  | _ => none

theorem ThreadState.fromDbStr_asStr (state : ThreadState) : fromDbStr state.asStr = some state := by
  cases state <;> rfl

/-- An active thread occupies the engine of its cell. -/
def ThreadState.active : ThreadState → Bool
  | spawning | running => true
  | idle | interrupted | timeout | failedUnknown | done => false

def transitionAllowed : ThreadState → ThreadState → Bool
  | .spawning, .running
  | .spawning, .failedUnknown
  | .running, .idle
  | .running, .interrupted
  | .running, .timeout
  | .running, .failedUnknown
  | .running, .done
  | .idle, .running
  | .interrupted, .running
  | .timeout, .running
  | .failedUnknown, .running
  | .done, .running => true
  | _, _ => false

structure CellThread where
  crewdThreadId : String
  cellName : String
  engineKind : EngineKind
  model : Option String
  profile : Option String
  engineProcessId : Option Int
  engineThreadId : Option String
  engineTurnId : Option String
  engineSessionId : Option String
  cwd : String
  worktreePath : Option String
  state : ThreadState
  generation : Nat
  createdByPrincipal : String
  idempotencyKey : String
  createdAt : String
  updatedAt : String
deriving DecidableEq, Repr

inductive JobState where
  | queued
  | leased
  | started
  | finished
  | cancelled
deriving DecidableEq, Repr

def JobState.asStr : JobState → String
  | queued => "queued"
  | leased => "leased"
  | started => "started"
  | finished => "finished"
  | cancelled => "cancelled"

def JobState.fromDbStr : String → Option JobState
  | "queued" => some .queued
  | "leased" => some .leased
  | "started" => some .started
  | "finished" => some .finished
  | "cancelled" => some .cancelled
  | _ => none

theorem JobState.fromDbStr_asStr (state : JobState) : fromDbStr state.asStr = some state := by
  cases state <;> rfl

/-- Jobs that count against the depth of the queue. -/
def JobState.active : JobState → Bool
  | queued | leased | started => true
  | finished | cancelled => false

structure CellJob where
  jobId : String
  crewdThreadId : String
  cellName : String
  payload : String
  state : JobState
  leaseExpiresAt : Option String
  acceptedByEngineAt : Option String
  engineTurnId : Option String
  createdAt : String
  enqueueSeq : Nat
deriving DecidableEq, Repr

def queueDepthDefault : Nat := 8

structure SpawnRow where
  caller : String
  cellName : String
  idempotencyKey : String
  crewdThreadId : String
  createdAt : String
deriving DecidableEq, Repr

structure JournalRow where
  threadId : String
  seq : Nat
  line : String
  time : String
deriving DecidableEq, Repr

inductive WorktreeState where
  | created
  | cleanupRequested
deriving DecidableEq, Repr

structure Worktree where
  canonicalPath : String
  createdByThread : String
  state : WorktreeState
  createdAt : String
deriving DecidableEq, Repr

structure Store where
  cells : List CellDef
  threads : List CellThread
  jobs : List CellJob
  spawnRequests : List SpawnRow
  cellLocks : List String
  journal : List JournalRow
  worktrees : List Worktree
deriving DecidableEq, Repr

def Store.empty : Store := ⟨[], [], [], [], [], [], []⟩

/-- What an engine reports about a turn. -/
inductive EngineEvent where
  | accepted (engineTurnId : String)
  | note (text : String)
  | final (finalAnswer : String)
  | failed (error : String)
deriving DecidableEq, Repr

def EngineEvent.terminal : EngineEvent → Bool
  | accepted _ | note _ => false
  | final _ | failed _ => true

/-- The line of the thread journal for the event. A failure is not journaled. -/
def EngineEvent.line : EngineEvent → String
  | accepted engineTurnId => s!"accepted: {engineTurnId}"
  | note text => text
  | final finalAnswer => s!"final: {finalAnswer}"
  | failed error => error

/-- The engine process of a cell and its adapter. An event carries the turn it was
emitted for, which only the engine knows: no function reads it, nor `started`. -/
structure Engine where
  kind : EngineKind
  up : Bool
  outbox : List (Nat × EngineEvent)
  started : List Nat
  engineThreadId : Option String
  engineSessionId : Option String
deriving DecidableEq, Repr

/-- `turn` numbers the started turns; no function reads it. -/
structure InFlightTurn where
  jobId : String
  cell : String
  startedAtNanos : Nat
  engineTurnId : Option String
  accepted : Bool
  turn : Nat
deriving DecidableEq, Repr

structure Scheduler where
  engines : List (String × Engine)
  backoffStep : List (String × Nat)
  inFlight : List (String × InFlightTurn)
  leaseSecs : Nat
  timeoutSecs : Nat
deriving DecidableEq, Repr

/-- `cancels` are the cell names sent to the scheduler and not yet received. -/
structure Memory where
  acl : Acl
  scheduler : Scheduler
  cancels : List String

/-- Iteration order of hash maps, outcomes of engine calls for each cell, and the
ACL loaded by a start (`none` when it does not load). A new codex adapter may come
with the thread id of its engine. -/
structure Outside where
  rank : String → Nat
  adapter : String → Except BusError (Option String)
  startTurn : String → Except BusError Unit
  resumes : String → Bool
  start : Option Acl

/-- The target of a spawn: a registered cell, or a freshly drawn identifier. -/
inductive Target where
  | named (cell : String)
  | ephemeral (uuid : String)
deriving DecidableEq, Repr

/-- A successful spawn, with the number of threads and jobs it added. -/
structure Spawned where
  caller : String
  idempotencyKey : String
  target : Target
  crewdThreadId : String
  replayed : Bool
  threads : Nat
  jobs : Nat
deriving DecidableEq, Repr

/-- What happened, for the statements about runs. `wrote` carries the job row that an
update of its state found; `made`, `attached` and `started` carry the engine thread that
the adapter is on, `attached` also the one of the crewd thread's record; `polled` and `applied`
carry the turn in flight and the turn the event was emitted for, and `applied` says whether a
statement of its section fails; `stopped` drops an adapter; `died` says whether the engine had
no turn to run then; `timedOut` counts the events left unread and says whether the engine is up;
`journaled` comes with a line of the journal; `moved` says whether every other thread of the
cell was inactive. -/
inductive Mark where
  | wrote (row : CellJob) (state : JobState)
  | made (cell : String) (context : Option String)
  | attached (threadId cell : String) (own context : Option String)
  | started (jobId threadId cell : String) (context : Option String) (turn : Nat) (ok : Bool)
  | requeued (jobId : String)
  | emitted (turn : Nat) (event : EngineEvent)
  | polled (turn tag : Nat) (event : EngineEvent)
  | applied (turn tag : Nat) (event : EngineEvent) (failing : Bool)
  | stopped (cell : String)
  | died (cell : String) (idle : Bool)
  | timedOut (cell : String) (turn unread : Nat) (up : Bool)
  | journaled (threadId : String) (event : EngineEvent)
  | moved (threadId : String) (source target : ThreadState) (alone : Bool)
  | spawned (task : Nat) (call : Spawned)
  | restarted
deriving DecidableEq, Repr

abbrev World := Crewd.World Store Memory Outside Mark
abbrev Act (α : Type) := Crewd.Act Store Memory Outside Mark α

section Jobs

def Store.job (st : Store) (jobId : String) : Option CellJob := st.jobs.find? (·.jobId = jobId)

def Store.updateJob (st : Store) (jobId : String) (f : CellJob → CellJob) : Store :=
  { st with jobs := updateWhere (·.jobId = jobId) f st.jobs }

/-- The queue of the cell from its head on. -/
def Store.queued (st : Store) (cell : String) : List CellJob :=
  (st.jobs.filter fun j => j.cellName = cell ∧ j.state = .queued).insertionSort
    fun a b => a.enqueueSeq ≤ b.enqueueSeq

def Store.activeCount (st : Store) (cell : String) : Nat :=
  (st.jobs.filter fun j => j.cellName = cell ∧ j.state.active).length

def Store.nextEnqueueSeq (st : Store) (cell : String) : Nat :=
  ((st.jobs.filter (·.cellName = cell)).map (·.enqueueSeq)).foldl max 0 + 1

def jobEnqueueInner [Platform] (threadId cell payload : String) (depthCap : Nat) :
    Act CellJob := do
  if (← query (·.activeCount cell)) ≥ depthCap then
    throw (.queueFull s!"queue depth cap reached for cell {cell}")
  else
    let enqueueSeq ← query (·.nextEnqueueSeq cell)
    let jobId ← newUuidv7
    let createdAt ← nowRfc3339
    let job : CellJob := ⟨jobId, threadId, cell, payload, .queued, none, none, none, createdAt,
      enqueueSeq⟩
    insertInto (fun st => st.jobs.any (·.jobId = jobId)) "cell_jobs.job_id"
      fun st => { st with jobs := st.jobs ++ [job] }
    pure job

def jobEnqueue [Platform] (threadId cell payload : String) (depthCap : Nat) : Act CellJob :=
  transaction (jobEnqueueInner threadId cell payload depthCap)

/-- An update of the row that changes its state. -/
def writeJob (row : CellJob) (f : CellJob → CellJob) (state : JobState) : Act Unit :=
  Action.step fun w => ((), { w with
    store := w.store.updateJob row.jobId f, history := .wrote row state :: w.history })

def CellJob.leasedUntil (expires : String) (j : CellJob) : CellJob :=
  { j with state := .leased, leaseExpiresAt := some expires }

def CellJob.setState (state : JobState) (j : CellJob) : CellJob := { j with state := state }

/-- The next job of the cell, leased; `none` while a started job occupies the cell.
Nothing is committed then. -/
def jobLeaseNext (cell : String) (leaseSecs : Nat) : Act (Option CellJob) := do
  mayFail
  let leased ← atomically do
    if ← query (fun st => st.jobs.any fun j => j.cellName = cell ∧ j.state = .started) then
      pure none
    else
      match ← query (fun st => (st.queued cell).head?) with
      | none => pure none
      | some job =>
        let expires ← rfc3339After leaseSecs
        mayFail
        writeJob job (.leasedUntil expires) .leased
        mayFail
        pure (some job.jobId)
  match leased with
  | none => pure none
  | some jobId =>
    match ← query (·.job jobId) with
    | none => throw (.internal "Query returned no rows")
    | some job => pure (some job)

/-- An `UPDATE cell_jobs … WHERE job_id`; no such row is an error. -/
def jobUpdate (jobId : String) (f : CellJob → CellJob) : Act Unit := do
  mayFail
  if ← readStore (fun st => st.jobs.any (·.jobId = jobId)) then
    writeStore fun st => st.updateJob jobId f
  else throw (.internal s!"job not found: {jobId}")

/-- The same for the state of the row. -/
def jobSetState (jobId : String) (state : JobState) : Act Unit := do
  mayFail
  match ← readStore (·.job jobId) with
  | some row => writeJob row (.setState state) state
  | none => throw (.internal s!"job not found: {jobId}")

def jobMarkStarted (jobId : String) : Act Unit := jobSetState jobId .started

def jobMarkAccepted (jobId engineTurnId : String) : Act Unit := do
  let now ← nowRfc3339
  jobUpdate jobId fun j => { j with
    acceptedByEngineAt := some now, engineTurnId := some engineTurnId }

def jobFinish (jobId : String) : Act Unit := jobSetState jobId .finished

def jobCancel (jobId : String) : Act Unit := jobSetState jobId .cancelled

def CellJob.requeue (j : CellJob) : CellJob := { j with state := .queued, leaseExpiresAt := none }

/-- Leased or started, and not accepted by the engine. -/
def CellJob.unaccepted (j : CellJob) : Bool :=
  j.acceptedByEngineAt = none ∧ (j.state = .leased ∨ j.state = .started)

def requeueRow (jobId : String) : Act Unit := Action.step fun w =>
  ((), { w with
    store := w.store.updateJob jobId CellJob.requeue, history := .requeued jobId :: w.history })

/-- Requeue a job, unless the engine has accepted it; whether a row was changed. -/
def jobRequeue (jobId : String) : Act Bool := do
  mayFail
  if ← readStore (fun st => st.jobs.any fun j => j.jobId = jobId ∧ j.unaccepted) then
    requeueRow jobId
    pure true
  else pure false

/-- The jobs whose lease has expired before the engine accepted them. -/
def Store.expiredLeases (st : Store) (now : String) : List String :=
  (st.jobs.filter fun j => (j.leaseExpiresAt.any (· < now)) ∧ j.unaccepted).map (·.jobId)

def jobRequeueExpiredLeases (now : String) : Act (List String) := transaction do
  let ids ← query (·.expiredLeases now)
  ids.forM fun id => do
    mayFail
    requeueRow id
  pure ids

def Store.jobsForThread (st : Store) (threadId : String) : List CellJob :=
  (st.jobs.filter (·.crewdThreadId = threadId)).insertionSort fun a b => a.enqueueSeq ≤ b.enqueueSeq

end Jobs

section Threads

def Store.thread (st : Store) (id : String) : Option CellThread :=
  st.threads.find? (·.crewdThreadId = id)

def Store.updateThread (st : Store) (id : String) (f : CellThread → CellThread) : Store :=
  { st with threads := updateWhere (·.crewdThreadId = id) f st.threads }

/-- The row that was updated last. -/
def latest : List CellThread → Option CellThread
  | [] => none
  | t :: rest =>
    match latest rest with
    | none => some t
    | some later => if t.updatedAt < later.updatedAt then some later else some t

def Store.threadActiveForCell (st : Store) (cell : String) : Option CellThread :=
  latest (st.threads.filter fun t => t.cellName = cell ∧ t.state.active)

/-- Every other thread of the cell of thread `id` is inactive. -/
def Store.alone (st : Store) (id : String) : Bool :=
  st.threads.all fun t => st.threads.all fun other =>
    t.crewdThreadId ≠ id ∨ other.crewdThreadId = id ∨ other.cellName ≠ t.cellName ∨
      !other.state.active

/-- An `UPDATE cell_threads … WHERE crewd_thread_id`; no such row is an error. -/
def threadUpdate (id : String) (f : CellThread → CellThread) (marks : Store → List Mark) :
    Act Unit := do
  mayFail
  if ← readStore (fun st => st.threads.any (·.crewdThreadId = id)) then
    Action.step fun w => ((), { w with
      store := w.store.updateThread id f, history := marks w.store ++ w.history })
  else throw (.internal s!"thread not found: {id}")

def threadTransition (id : String) (target : ThreadState) : Act Unit := do
  match ← query (·.thread id) with
  | none => throw (.internal s!"thread not found: {id}")
  | some t =>
    if transitionAllowed t.state target then
      let now ← nowRfc3339
      threadUpdate id (fun row => { row with state := target, updatedAt := now })
        fun st => [.moved id t.state target (st.alone id)]
    else
      throw (.internal s!"invalid thread transition: {t.state.debug} -> {target.debug}")

/-- Sets only the columns that are given. -/
def threadSetEngineIds (id : String) (processId : Option Int)
    (threadId turnId sessionId : Option String) : Act Unit := do
  let now ← nowRfc3339
  threadUpdate id (fun row => { row with
    engineProcessId := processId <|> row.engineProcessId
    engineThreadId := threadId <|> row.engineThreadId
    engineTurnId := turnId <|> row.engineTurnId
    engineSessionId := sessionId <|> row.engineSessionId
    updatedAt := now }) fun _ => []

/-- The threads in the state, oldest first. -/
def Store.threadsInState (st : Store) (state : ThreadState) : List CellThread :=
  (st.threads.filter (·.state = state)).insertionSort fun a b => a.createdAt ≤ b.createdAt

def Store.nextJournalSeq (st : Store) (threadId : String) : Nat :=
  ((st.journal.filter (·.threadId = threadId)).map (·.seq)).foldl max 0 + 1

/-- A row of the journal, written for an event. -/
def writeLine (row : JournalRow) (event : EngineEvent) : Act Unit := Action.step fun w =>
  ((), { w with
    store := { w.store with journal := w.store.journal ++ [row] }
    history := .journaled row.threadId event :: w.history })

/-- The event is only recorded. -/
def journalAppend (threadId line : String) (event : EngineEvent) : Act Nat := transaction do
  let next ← query (·.nextJournalSeq threadId)
  let now ← nowRfc3339
  mayFail
  if ← readStore (·.journal.any fun row => row.threadId = threadId ∧ row.seq = next) then
    throw (.internal
      "UNIQUE constraint failed: thread_journal.thread_id, thread_journal.seq")
  else
    writeLine ⟨threadId, next, line, now⟩ event
    pure next

end Threads

section Cells

def Store.cell (st : Store) (name : String) : Option CellDef := st.cells.find? (·.name = name)

def Store.cellListDefs (st : Store) : List CellDef :=
  st.cells.insertionSort fun a b => a.name ≤ b.name

def CellThread.toDef (t : CellThread) : CellDef :=
  ⟨t.cellName, t.engineKind, t.model, t.profile, t.cwd, false, none, t.createdAt⟩

/-- The cells outside the registry that have a queued job, each with the launch
parameters of its thread that was updated last. -/
def Store.ephemeralStartableDefs (st : Store) : List CellDef :=
  let startable := st.threads.filter fun t =>
    !st.cells.any (·.name = t.cellName) ∧
      st.jobs.any fun j => j.cellName = t.cellName ∧ j.state = .queued
  let names := (startable.map (·.cellName)).dedup.insertionSort (· ≤ ·)
  names.filterMap fun name => (latest (startable.filter (·.cellName = name))).map CellThread.toDef

end Cells
end Crewd.Fabric
