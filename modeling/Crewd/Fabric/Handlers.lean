import Crewd.Fabric.Scheduler

/-! The tools of the cell fabric that change its tables: `cell_spawn`,
`cell_send_task` and `cell_cancel`. -/
namespace Crewd.Fabric
open Autocommit Concurrent

structure CellSpawnParams where
  cell : Option String
  engine : Option String
  model : Option String
  profile : Option String
  cwd : Option String
  worktree : Option String
  task : String
  idempotencyKey : String
deriving DecidableEq, Repr

structure CellSendTaskParams where
  crewdThreadId : String
  message : String
  idempotencyKey : Option String
deriving DecidableEq, Repr

structure CellCancelParams where
  crewdThreadId : String
deriving DecidableEq, Repr

inductive Answer where
  | spawned (crewdThreadId : String) (replayed : Bool)
  | enqueued (jobId : String)
  | cancelled (cancelledJobs : Nat)
deriving DecidableEq, Repr

section Validators

def ephemeralPrefix : String := "~ephemeral-"

def isLowerOrDigit (c : Char) : Bool := ('a' ≤ c ∧ c ≤ 'z') ∨ ('0' ≤ c ∧ c ≤ '9')

def validateCellName (name : String) : Except BusError Unit :=
  let n := name.utf8ByteSize
  if n < 1 ∨ 64 < n then .error (.policyDenied s!"cell name length out of [1,64]: {n}")
  else if !name.toList.all (fun c => isLowerOrDigit c ∨ c = '_' ∨ c = '-') then
    .error (.policyDenied s!"cell name has chars outside [a-z0-9_-]: {name}")
  else .ok ()

def stripEphemeral (name : String) : Option String :=
  if ephemeralPrefix.toList <+: name.toList then
    some (String.ofList (name.toList.drop ephemeralPrefix.length))
  else none

def validateCellNameAllowingEphemeral (name : String) : Except BusError Unit :=
  match stripEphemeral name with
  | none => validateCellName name
  | some suffix =>
    let n := suffix.utf8ByteSize
    if n < 1 ∨ 53 < n then
      .error (.policyDenied s!"ephemeral cell suffix length out of [1,53]: {n}")
    else if !suffix.toList.all isLowerOrDigit then
      .error (.policyDenied s!"ephemeral cell suffix has chars outside [a-z0-9]: {suffix}")
    else .ok ()

def validateIdempotencyKey (key : String) : Except BusError Unit :=
  let n := key.utf8ByteSize
  if n < 1 ∨ 128 < n then .error (.policyDenied s!"idempotency key length out of [1,128]: {n}")
  else .ok ()

end Validators

section Spawning

inductive SpawnTarget where
  | named (d : CellDef)
  | ephemeral (engine : EngineKind) (model profile : Option String) (cwd : String)

/-- A named cell is launched as it is defined; an ephemeral one needs an engine. -/
def resolveSpawnTarget (named : Option CellDef) (reqEngine : Option EngineKind)
    (reqModel reqProfile reqCwd : Option String) : Except BusError SpawnTarget :=
  match named with
  | some d =>
    if reqEngine.isSome ∨ reqModel.isSome ∨ reqProfile.isSome ∨ reqCwd.isSome then
      .error (.policyDenied (s!"named cell '{d.name}' is immutable at launch; " ++
        "engine/model/profile/cwd overrides are forbidden"))
    else .ok (.named d)
  | none =>
    match reqEngine with
    | none => .error (.policyDenied "ephemeral spawn requires an engine")
    | some engine => .ok (.ephemeral engine reqModel reqProfile (reqCwd.getD "."))

/-- The last eight letters or digits of an identifier. -/
def shortId (uuid : String) : String :=
  String.ofList (((uuid.toList.filter Char.isAlphanum).reverse.take 8).reverse)

def ephemeralCellName (uuid : String) : String := ephemeralPrefix ++ shortId uuid

def Target.cellName : Target → String
  | named cell => cell
  | ephemeral uuid => ephemeralCellName uuid

/-- What a cell is launched with. -/
structure Launch where
  engine : EngineKind
  model : Option String
  profile : Option String
  cwd : String
  worktreePath : Option String

def SpawnRow.is (row : SpawnRow) (caller cellName idempotencyKey : String) : Bool :=
  row.caller = caller ∧ row.cellName = cellName ∧ row.idempotencyKey = idempotencyKey

/-- `spawn_idempotent`: the thread, and whether the request was a replay. -/
def spawnIdempotent [Platform] (caller cellName idempotencyKey payload : String)
    (launch : Launch) (depthCap : Nat) : Act (CellThread × Bool) := do
  Action.ofExcept (validateCellNameAllowingEphemeral cellName)
  Action.ofExcept (validateIdempotencyKey idempotencyKey)
  mayFail
  let outcome : String ⊕ CellThread ← atomically do
    match ← query (·.spawnRequests.find? (·.is caller cellName idempotencyKey)) with
    | some row =>
      mayFail
      pure (.inl row.crewdThreadId)
    | none =>
      match ← append ⟨"cell_spawn_requested", none, some caller, some cellName, "ok",
          some (.obj [("caller", .str caller), ("cell", .str cellName),
            ("idempotency_key", .str idempotencyKey), ("engine", .str launch.engine.asStr)])⟩ with
      | .error e => throw (.internal s!"audit cell_spawn_requested: {e}")
      | .ok () =>
        execute fun st => { st with
          cellLocks := if st.cellLocks.contains cellName then st.cellLocks
            else st.cellLocks ++ [cellName] }
        if !(← query (·.cellLocks.contains cellName)) then
          throw (.internal "Query returned no rows")
        else if (← query (·.threadActiveForCell cellName)).isSome then
          throw (.cellBusy s!"cell {cellName} already has an active thread")
        else
          let threadId ← newUuidv7
          let now ← nowRfc3339
          insertInto (fun st => st.spawnRequests.any (·.is caller cellName idempotencyKey))
            "spawn_requests.caller, spawn_requests.cell_name, spawn_requests.idempotency_key"
            fun st => { st with spawnRequests := st.spawnRequests ++
              [⟨caller, cellName, idempotencyKey, threadId, now⟩] }
          let thread : CellThread := ⟨threadId, cellName, launch.engine, launch.model,
            launch.profile, none, none, none, none, launch.cwd, launch.worktreePath, .spawning, 0,
            caller, idempotencyKey, now, now⟩
          insertInto (fun st => st.threads.any (·.crewdThreadId = threadId))
            "cell_threads.crewd_thread_id" fun st => { st with threads := st.threads ++ [thread] }
          let _ ← jobEnqueueInner threadId cellName payload depthCap
          mayFail
          pure (.inr thread)
  match outcome with
  | .inr thread => pure (thread, false)
  | .inl threadId =>
    match ← query (·.thread threadId) with
    | none => throw (.internal s!"spawn replay: missing thread {threadId}")
    | some thread => pure (thread, true)

def Store.rows (st : Store) : Nat × Nat := (st.threads.length, st.jobs.length)

/-- The spawn of a handler, recorded with the threads and jobs it added. -/
def spawnAndRecord [Platform] (task : Nat) (caller : String) (target : Target)
    (idempotencyKey payload : String) (launch : Launch) : Act (CellThread × Bool) := do
  let before ← readStore Store.rows
  let (thread, replayed) ← spawnIdempotent caller target.cellName idempotencyKey payload launch
    queueDepthDefault
  let after ← readStore Store.rows
  record (.spawned task ⟨caller, idempotencyKey, target, thread.crewdThreadId, replayed,
    after.1 - before.1, after.2 - before.2⟩)
  pure (thread, replayed)

def parseEngine : Option String → Except BusError (Option EngineKind)
  | none => .ok none
  | some s =>
    match EngineKind.fromDbStr s with
    | none => .error (.internal s!"unknown engine: {s}")
    | some kind => .ok (some kind)

def rejectReservedName : Option String → Except BusError Unit
  | none => .ok ()
  | some c =>
    if ['~'] <+: c.toList then
      .error (.policyDenied s!"cell name '{c}' uses the reserved '~' prefix (daemon-only)")
    else .ok ()

def checkCapability (caller : String) (cap : Capability) : Act Unit := do
  let acl ← readMemory (·.acl)
  Action.ofExcept (acl.check caller cap)

def lookupCell : Option String → Handler (Option CellDef)
  | none => pure none
  | some c => locked (query (·.cell c))

/-- The cell to spawn on and what it is launched with. -/
def chooseTarget [Platform] (worktree : Option String) : SpawnTarget → Handler (Target × Launch)
  | .named d => pure (.named d.name, ⟨d.engine, d.model, d.profile, d.cwd, worktree⟩)
  | .ephemeral engine model profile cwd => do
    let uuid ← locked newUuidv7
    pure (.ephemeral uuid, ⟨engine, model, profile, cwd, worktree⟩)

def handleSpawn [Platform] (task : Nat) (caller : String) (params : Params CellSpawnParams) :
    Handler Answer := do
  raise (rejectClientIdentityKeys params.keys [])
  let p ← raise (parseParams params)
  locked (checkCapability caller .spawn)
  raise (checkIdem p.idempotencyKey)
  raise (rejectReservedName p.cell)
  let named ← lookupCell p.cell
  let reqEngine ← raise (parseEngine p.engine)
  let resolved ← raise (resolveSpawnTarget named reqEngine p.model p.profile p.cwd)
  let (target, launch) ← chooseTarget p.worktree resolved
  let (thread, replayed) ← locked (spawnAndRecord task caller target p.idempotencyKey p.task launch)
  pure (.spawned thread.crewdThreadId replayed)

end Spawning

def ThreadState.terminal : ThreadState → Bool
  | done | interrupted | timeout | failedUnknown => true
  | spawning | running | idle => false

def threadOrUnknown (id : String) : Act CellThread := do
  match ← query (·.thread id) with
  | none => throw (.unknownCell s!"thread not found: {id}")
  | some thread => pure thread

/-- The idempotency key of the request is not looked at. -/
def handleSendTask [Platform] (caller : String) (params : Params CellSendTaskParams) :
    Handler Answer := do
  raise (rejectClientIdentityKeys params.keys [])
  let p ← raise (parseParams params)
  locked (checkCapability caller .spawn)
  let job ← locked do
    let thread ← threadOrUnknown p.crewdThreadId
    if thread.state.terminal ∧ thread.engineKind = .pi then
      throw (.threadNotResumable s!"pi v0 has no session resume for thread {p.crewdThreadId}")
    else jobEnqueue p.crewdThreadId thread.cellName p.message queueDepthDefault
  pure (.enqueued job.jobId)

def checkThreadOwner (caller : String) (thread : CellThread) : Act Unit := do
  if thread.createdByPrincipal = caller then pure () else checkCapability caller .adminRegistry

def interruptRunning (thread : CellThread) : Act Unit :=
  if thread.state = .running then threadTransition thread.crewdThreadId .interrupted else pure ()

/-- Cancel the jobs of the thread that are still active; the thread itself is
interrupted only when it runs. -/
def cancelThread (caller threadId : String) : Act (Nat × String) := do
  let thread ← threadOrUnknown threadId
  checkThreadOwner caller thread
  let jobs ← query (·.jobsForThread threadId)
  let active := jobs.filter (·.state.active)
  active.forM fun j => jobCancel j.jobId
  interruptRunning thread
  pure (active.length, thread.cellName)

def handleCancel (caller : String) (params : Params CellCancelParams) : Handler Answer := do
  raise (rejectClientIdentityKeys params.keys [])
  let p ← raise (parseParams params)
  locked (checkCapability caller .spawn)
  let (cancelledJobs, cellName) ← locked (cancelThread caller p.crewdThreadId)
  locked (audit "cell_cancelled" (some p.crewdThreadId) (some caller) none "cancelled" none)
  locked (writeMemory fun m => ((), { m with cancels := m.cancels ++ [cellName] }))
  pure (.cancelled cancelledJobs)

end Crewd.Fabric
