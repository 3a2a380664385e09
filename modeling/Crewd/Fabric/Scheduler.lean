import Crewd.Fabric.Store
import Crewd.Handler

/-! Engine supervisor and job scheduler. A tick cancels, requeues expired leases,
drains events, looks for dead and overdue turns, starts turns and drains again. -/
namespace Crewd.Fabric
open Autocommit Concurrent Table

abbrev Handler (α : Type) := Crewd.Handler Store Memory Outside Mark α

namespace Scheduler

def new : Scheduler := ⟨[], [], [], 30, 1800⟩

def engine (s : Scheduler) (cell : String) : Option Engine := s.engines.lookup cell

def turn (s : Scheduler) (threadId : String) : Option InFlightTurn := s.inFlight.lookup threadId

/-- The adapter is dropped with the events it holds. -/
def stop (s : Scheduler) (cell : String) : Scheduler := { s with engines := without cell s.engines }

def land (s : Scheduler) (threadId : String) : Scheduler :=
  { s with inFlight := without threadId s.inFlight }

def dropCell (s : Scheduler) (cell : String) : Scheduler :=
  { s with inFlight := s.inFlight.filter fun entry => entry.2.cell ≠ cell }

def busy (s : Scheduler) (cell : String) : Bool := s.inFlight.any (·.2.cell = cell)

def updateEngine (s : Scheduler) (cell : String) (f : Engine → Engine) : Scheduler :=
  { s with engines := alter cell f s.engines }

def updateTurn (s : Scheduler) (threadId : String) (f : InFlightTurn → InFlightTurn) : Scheduler :=
  { s with inFlight := alter threadId f s.inFlight }

end Scheduler

def Memory.schedule (m : Memory) (f : Scheduler → Scheduler) : Memory :=
  { m with scheduler := f m.scheduler }

def readScheduler {α : Type} (f : Scheduler → α) : Act α := readMemory fun m => f m.scheduler

def updateScheduler (f : Scheduler → Scheduler) : Act Unit :=
  writeMemory fun m => ((), m.schedule f)

/-- The free-standing `audit_append` of the scheduler. -/
def auditAppend (kind : String) (messageId fromCell toCell : Option String) (outcome : String)
    (detail : Option Json) : Act Unit := do
  match ← append ⟨kind, messageId, fromCell, toCell, outcome, detail⟩ with
  | .ok () => pure ()
  | .error e => throw (.internal e)

section Supervisor

/-- The adapter is dropped; what the supervisor forgets with it comes first. -/
def stopEngine (cell : String) (f : Scheduler → Scheduler) : Act Unit := Action.step fun w =>
  ((), { w with
    memory := w.memory.schedule fun s => (f s).stop cell
    history := .stopped cell :: w.history })

/-- The best-effort event of an engine that was stopped. -/
def auditStopped (cell : String) (there : Bool) : Act Unit := do
  if there then
    let _ ← append ⟨"engine_stopped", none, none, some cell, "stopped", none⟩
    pure ()
  else pure ()

/-- A new adapter. Only codex engines have threads of their own. -/
def makeAdapter (cell : String) (kind : EngineKind) (threadId : Option String) : Act Unit :=
  Action.step fun w =>
    let context := if kind = .codex then threadId else none
    ((), { w with
      memory := w.memory.schedule fun s =>
        { s with engines := put cell ⟨kind, true, [], [], context, none⟩ s.engines }
      history := .made cell context :: w.history })

/-- An adapter that exists is reused, whether its process is alive or not. An
in-process engine cannot fail to come up. -/
def ensure (cell : String) (kind : EngineKind) : Act Unit := do
  if (← readScheduler (·.engine cell)).isSome then pure ()
  else
    match ← readOutside (·.adapter cell) with
    | .ok threadId => makeAdapter cell kind threadId
    | .error e => if kind = .fake then makeAdapter cell kind none else throw e

/-- What a resume leaves in the adapter; failures are ignored. -/
def Engine.resumed (threadId sessionId : Option String) (e : Engine) : Engine :=
  match e.kind with
  | .codex => { e with engineThreadId := threadId <|> e.engineThreadId }
  | .fake => { e with engineSessionId := sessionId <|> e.engineSessionId }
  | .claude | .pi => e

/-- What a resume leaves in the adapter, recorded with the engine thread it is on then. -/
def attach (cell : String) (thread : CellThread) (f : Engine → Engine) : Act Unit :=
  Action.step fun w =>
    let m := w.memory.schedule (·.updateEngine cell f)
    ((), { w with
      memory := m
      history := .attached thread.crewdThreadId cell thread.engineThreadId
        ((m.scheduler.engine cell).bind (·.engineThreadId)) :: w.history })

/-- Reattach by the id of the thread's own engine: codex by thread id, the others
by session id. -/
def maybeResume (d : CellDef) (thread : CellThread) : Act Unit := do
  if ← readOutside (·.resumes d.name) then
    if d.engine = .codex then attach d.name thread (Engine.resumed thread.engineThreadId none)
    else attach d.name thread (Engine.resumed none thread.engineSessionId)
  else attach d.name thread id

/-- The turn is in flight when the engine took the request. -/
def launchTurn (cell threadId jobId : String) (nowNanos : Nat) (ok : Bool) : Act Unit :=
  Action.step fun w =>
    let turn := w.history.length
    let s := w.memory.scheduler.updateEngine cell fun e => { e with started := turn :: e.started }
    let flying := if ok then
      { s with inFlight := put threadId ⟨jobId, cell, nowNanos, none, false, turn⟩ s.inFlight }
      else s
    ((), { w with
      memory := { w.memory with scheduler := flying }
      history := .started jobId threadId cell
        ((w.memory.scheduler.engine cell).bind (·.engineThreadId)) turn ok :: w.history })

def startTurn (cell threadId jobId : String) (nowNanos : Nat) : Act Unit := do
  if (← readScheduler (·.engine cell)).isSome then
    let result ← readOutside (·.startTurn cell)
    launchTurn cell threadId jobId nowNanos result.isOk
    Action.ofExcept result
  else throw (.engineDown s!"no engine for cell {cell}")

/-- Take the events that the engine of the turn's cell holds. -/
def poll (turn : InFlightTurn) : Act (List (Nat × EngineEvent)) := Action.step fun w =>
  match w.memory.scheduler.engine turn.cell with
  | none => ([], w)
  | some e => (e.outbox, { w with
      memory := w.memory.schedule (·.updateEngine turn.cell fun e => { e with outbox := [] })
      history := (e.outbox.map fun (tag, event) => Mark.polled turn.turn tag event).reverse ++
        w.history })

/-- Respawn backoff, doubling up to 60 seconds. -/
def respawnBackoffSecs (cell : String) : Act Nat := writeMemory fun m =>
  let step := (m.scheduler.backoffStep.lookup cell).getD 0
  (min 60 (if step < 64 then 2 ^ step else u64Max),
    m.schedule fun s => { s with backoffStep := put cell (step + 1) s.backoffStep })

end Supervisor

section Turns

/-- Hash map iteration: all keys, in an order given by the outside. -/
def inFlightKeys : Act (List String) := do
  let rank ← readOutside (·.rank)
  readScheduler fun s => (s.inFlight.map (·.1)).insertionSort fun a b => rank a ≤ rank b

/-- An accepted job is finished, and so is one whose engine could not be spawned;
any other failed job is queued again. -/
def settleFailed (jobId : String) (accepted : Bool) (reason : String) : Act Unit :=
  if jobId = "" then pure ()
  else if accepted then jobFinish jobId
  else if reason = "engine_spawn" then jobFinish jobId
  else Action.ignore (jobRequeue jobId)

def failTurn (threadId cell jobId : String) (accepted : Bool) (error reason : String) :
    Handler Unit := do
  locked do
    settleFailed jobId accepted reason
    threadTransition threadId .failedUnknown
  locked (auditAppend "cell_turn_failed" (some threadId) none (some cell) "failed"
    (some (.obj [("accepted", .bool accepted), ("error", .str error), ("reason", .str reason)])))

/-- The engine's own ids, as far as they are known. -/
def persistEngineIds (threadId cell : String) : Act Unit := do
  let engine ← readScheduler (·.engine cell)
  let sessionId := engine.bind (·.engineSessionId)
  let engineThreadId := engine.bind (·.engineThreadId)
  if sessionId.isSome ∨ engineThreadId.isSome then
    threadSetEngineIds threadId none engineThreadId none sessionId
  else pure ()

/-- The event is applied to the turn in flight. -/
def apply (turn : Nat) (event : Nat × EngineEvent) : Act Unit := Action.step fun w =>
  ((), { w with history := .applied turn event.1 event.2 w.failing :: w.history })

def storeAccepted (threadId engineTurnId : String) : Option String → Act Unit
  | none => pure ()
  | some jobId => do
    jobMarkAccepted jobId engineTurnId
    threadSetEngineIds threadId none none (some engineTurnId) none
    let _ ← journalAppend threadId s!"accepted: {engineTurnId}" (.accepted engineTurnId)

def acceptTurn (threadId engineTurnId : String) : Act Unit := do
  let turn ← readScheduler (·.turn threadId)
  storeAccepted threadId engineTurnId (turn.map (·.jobId))
  updateScheduler (·.updateTurn threadId fun t =>
    { t with engineTurnId := some engineTurnId, accepted := true })

def finishKnown : Option String → Act Unit
  | none => pure ()
  | some jobId => jobFinish jobId

def completeTurn (threadId : String) (jobId : Option String) (finalAnswer : String) : Act Unit := do
  let _ ← journalAppend threadId s!"final: {finalAnswer}" (.final finalAnswer)
  finishKnown jobId
  threadTransition threadId .idle

/-- Events in order, up to a terminal one; what comes after it is dropped. -/
def drainEvents (threadId cell : String) (turn : Nat) : List (Nat × EngineEvent) → Handler Unit
  | [] => pure ()
  | event :: rest =>
    match event.2 with
    | .accepted engineTurnId => do
      locked do
        apply turn event
        acceptTurn threadId engineTurnId
      drainEvents threadId cell turn rest
    | .note text => do
      locked do
        apply turn event
        let _ ← journalAppend threadId text event.2
      drainEvents threadId cell turn rest
    | .final finalAnswer => do
      let jobId ← locked do
        apply turn event
        let jobId ← readScheduler fun s => (s.turn threadId).map (·.jobId)
        persistEngineIds threadId cell
        pure jobId
      locked (completeTurn threadId jobId finalAnswer)
      locked do
        auditAppend "cell_turn_completed" (some threadId) none (some cell) "completed" none
        updateScheduler (·.land threadId)
    | .failed error => do
      let found ← locked do
        apply turn event
        readScheduler fun s => (s.turn threadId).map fun t => (t.jobId, t.accepted)
      let (jobId, accepted) := found.getD ("", false)
      failTurn threadId cell jobId accepted error "engine_failed"
      locked (updateScheduler (·.land threadId))

def drainTurn (threadId : String) : Handler Unit := do
  let polled ← locked do
    match ← readScheduler (·.turn threadId) with
    | none => pure none
    | some turn =>
      let events ← poll turn
      pure (some (turn, events))
  match polled with
  | none => pure ()
  | some (turn, events) => drainEvents threadId turn.cell turn.turn events

/-- The turn leaves the map before its outcome is stored. -/
def takeTurn (threadId : String) : Act (Option InFlightTurn) := Action.step fun w =>
  match w.memory.scheduler.turn threadId with
  | none => (none, w)
  | some turn =>
    let engine := w.memory.scheduler.engine turn.cell
    let unread := (engine.map (·.outbox.length)).getD 0
    (some turn, { w with
      memory := w.memory.schedule (·.land threadId)
      history := .timedOut turn.cell turn.turn unread (engine.all (·.up)) :: w.history })

def persistTurnId (threadId : String) : Option String → Act Unit
  | none => pure ()
  | some id => threadSetEngineIds threadId none none (some id) none

def handleTimeout (threadId : String) : Handler Unit := do
  match ← locked (takeTurn threadId) with
  | none => pure ()
  | some turn =>
    locked do
      persistTurnId threadId turn.engineTurnId
      threadTransition threadId .timeout
      if turn.accepted then jobFinish turn.jobId else Action.ignore (jobRequeue turn.jobId)
    locked (auditAppend "cell_timeout" (some threadId) none (some turn.cell) "timeout"
      (turn.engineTurnId.map fun id => .obj [("engine_turn_id", .str id)]))

def checkDeathAndTimeout (nowNanos : Nat) (threadId : String) : Handler Unit := do
  let found ← locked (readScheduler fun s => (s.turn threadId).map fun turn =>
    (turn, (s.engine turn.cell).map (·.up), s.timeoutSecs))
  match found with
  | none => pure ()
  | some (turn, up, timeoutSecs) =>
    if up = some false then
      failTurn threadId turn.cell turn.jobId turn.accepted "engine process died" "engine_death"
      locked do
        let there ← readScheduler fun s => (s.engine turn.cell).isSome
        stopEngine turn.cell (·.land threadId)
        auditStopped turn.cell there
        let _ ← respawnBackoffSecs turn.cell
    else if nowNanos - turn.startedAtNanos > timeoutSecs * 1000000000 then
      handleTimeout threadId
    else pure ()

def tryStartTurn (d : CellDef) (nowNanos : Nat) : Handler Unit := do
  let leased ← locked do
    let leaseSecs ← readScheduler (·.leaseSecs)
    jobLeaseNext d.name leaseSecs
  match leased with
  | none => pure ()
  | some job =>
    match ← locked (query (·.thread job.crewdThreadId)) with
    | none => pure ()
    | some thread =>
      if transitionAllowed thread.state .running then
        locked do
          jobMarkStarted job.jobId
          threadTransition job.crewdThreadId .running
        locked (auditAppend "cell_turn_started" (some job.crewdThreadId) none (some d.name)
          "started" none)
        match ← locked (ensure d.name d.engine).outcome with
        | .error e =>
          failTurn job.crewdThreadId d.name job.jobId false e.display "engine_spawn"
        | .ok () =>
          locked (maybeResume d thread)
          match ← locked (startTurn d.name job.crewdThreadId job.jobId nowNanos).outcome with
          | .error e => failTurn job.crewdThreadId d.name job.jobId false e.display "start_turn"
          | .ok () => pure ()
      else pure ()

end Turns

section Tick

/-- Interrupting only writes to the engine process, which is then killed. -/
def cancelCell (cell : String) : Act Unit := do
  let there ← readScheduler fun s => (s.engine cell).isSome
  stopEngine cell id
  auditStopped cell there
  updateScheduler (·.dropCell cell)

def drainCancels : Handler Unit := do
  let cells ← locked (writeMemory fun m => (m.cancels, { m with cancels := [] }))
  cells.forM fun cell => locked (cancelCell cell)

/-- The section of the tick that lists the cells. -/
def startable : Act (List CellDef) := do
  let defs ← query (·.cellListDefs)
  let ephemeral ← query (·.ephemeralStartableDefs)
  pure (defs ++ ephemeral)

def startTurns (nowNanos : Nat) : Handler Unit := do
  let cells ← locked startable
  cells.forM fun d => do
    if ← locked (readScheduler (·.busy d.name)) then pure () else tryStartTurn d nowNanos

/-- Clock readings are milliseconds; the scheduler counts nanoseconds. -/
def tick : Handler Unit := do
  let (now, nowNanos) ← locked do
    let now ← nowRfc3339
    let ms ← nowMs
    pure (now, ms * 1000000)
  drainCancels
  let _ ← locked (jobRequeueExpiredLeases now)
  let existing ← locked inFlightKeys
  existing.forM drainTurn
  let still ← locked inFlightKeys
  still.forM (checkDeathAndTimeout nowNanos)
  startTurns nowNanos
  let fresh ← locked inFlightKeys
  fresh.forM fun threadId =>
    if existing.contains threadId then pure () else drainTurn threadId

end Tick

/-- One orphaned thread: the audit event comes first. -/
def recoverThread (outcome previous : String) (target : ThreadState) (t : CellThread) :
    Act String := do
  match ← append ⟨"cell_turn_failed", some t.crewdThreadId, none, some t.cellName, outcome,
      some (.obj [("reason", .str "boot_recovery"), ("previous_state", .str previous)])⟩ with
  | .error e => throw (.internal s!"audit boot_recovery: {e}")
  | .ok () =>
    threadTransition t.crewdThreadId target
    pure t.crewdThreadId

/-- After a crash no engine runs: threads found running are interrupted, threads
found spawning never ran. -/
def bootRecovery : Act (List String) := do
  let running ← query (·.threadsInState .running)
  let interrupted ← running.mapM (recoverThread "interrupted" "running" .interrupted)
  let spawning ← query (·.threadsInState .spawning)
  let failed ← spawning.mapM (recoverThread "failed_unknown" "spawning" .failedUnknown)
  pure (interrupted ++ failed)

end Crewd.Fabric
