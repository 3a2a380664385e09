import Crewd.Lib.Sql
import Crewd.Bus.Store
import Crewd.Fabric.Store

/-! The rows that envelopes, threads, jobs and cells are stored in: the parameters of each
`INSERT`, the columns of each `SELECT`, and what is read back from them by position. -/
namespace Crewd.Rows
open Sql Fabric

/-- `db_err`. -/
def dbErr (e : Error) : BusError := .internal e.display

/-- `as u64` of an `i64`. -/
def asU64 (n : Int) : Nat := (BitVec.ofInt 64 n).toNat

/-- `as u32` of an `i64`. -/
def asU32 (n : Int) : Nat := (BitVec.ofInt 32 n).toNat

/-- `serde_json` on lists of texts. -/
structure ListJson where
  toStr : List String → String
  fromStr : String → Option (List String)

/-- What is written is read back. -/
def ListJson.RoundTrips (json : ListJson) : Prop :=
  ∀ items, json.fromStr (json.toStr items) = some items

section Envelopes

def parseKind : String → Kind
  | "ask" => .ask
  | "reply" => .reply
  | "broadcast" => .broadcast
  | "notice" => .notice
  | _ => .send

def parseMsgType : String → MsgType
  | "note" => .note
  | "task" => .task
  | "ask" => .ask
  | "reply" => .reply
  | "evidence" => .evidence
  | "admin_request" => .adminRequest
  | _ => .task

def envelopes : Schema where
  table := "envelopes"
  columns := [⟨"message_id", .text, false⟩, ⟨"spec_version", .text, true⟩,
    ⟨"ask_id", .text, false⟩, ⟨"from_cell", .text, true⟩, ⟨"to_cell", .text, false⟩,
    ⟨"kind", .text, true⟩, ⟨"msg_type", .text, true⟩, ⟨"principal_capabilities", .text, true⟩,
    ⟨"created_at", .text, true⟩, ⟨"expires_at", .text, true⟩, ⟨"seq", .integer, true⟩,
    ⟨"idempotency_key", .text, true⟩, ⟨"body", .text, true⟩, ⟨"file_refs", .text, true⟩,
    ⟨"taint", .text, true⟩, ⟨"reply_to", .text, false⟩]

def insertEnvelopeCols : List String := ["message_id", "spec_version", "ask_id", "from_cell",
  "to_cell", "kind", "msg_type", "principal_capabilities", "created_at", "expires_at", "seq",
  "idempotency_key", "body", "file_refs", "taint", "reply_to"]

def envelopeParams (json : ListJson) (env : Envelope) : List (Except Error Sql.Value) :=
  [ToSql.toSql env.messageId, ToSql.toSql env.specVersion, ToSql.toSql env.askId,
    ToSql.toSql env.fromCell, ToSql.toSql env.toCell, ToSql.toSql env.kind.asStr,
    ToSql.toSql env.msgType.asStr, ToSql.toSql (json.toStr env.principalCapabilities),
    ToSql.toSql env.createdAt, ToSql.toSql env.expiresAt, ToSql.toSql env.seq,
    ToSql.toSql env.idempotencyKey, ToSql.toSql env.body, ToSql.toSql (json.toStr env.fileRefs),
    ToSql.toSql env.taint, ToSql.toSql env.replyTo]

def insertEnvelope (json : ListJson) (env : Envelope) (rows : List Row) :
    Except BusError (List Row) :=
  (envelopes.insertOrReplace "message_id" insertEnvelopeCols (envelopeParams json env) rows).mapError
    dbErr

def envCols : List (String × String) := [("e", "message_id"), ("e", "spec_version"),
  ("e", "ask_id"), ("e", "from_cell"), ("e", "to_cell"), ("e", "kind"), ("e", "msg_type"),
  ("e", "principal_capabilities"), ("e", "created_at"), ("e", "expires_at"), ("e", "seq"),
  ("e", "idempotency_key"), ("e", "body"), ("e", "file_refs"), ("e", "taint"), ("e", "reply_to")]

def envelopeFromRow (json : ListJson) (row : Fields) : Except Error Envelope := do
  let kind : String ← row.get 5
  let msgType : String ← row.get 6
  let caps : String ← row.get 7
  let refs : String ← row.get 13
  let seq : Int ← row.get 10
  pure {
    messageId := ← row.get 0
    specVersion := ← row.get 1
    askId := ← row.get 2
    fromCell := ← row.get 3
    toCell := ← row.get 4
    kind := parseKind kind
    msgType := parseMsgType msgType
    principalCapabilities := (json.fromStr caps).getD []
    createdAt := ← row.get 8
    expiresAt := ← row.get 9
    seq := asU64 seq
    idempotencyKey := ← row.get 11
    body := ← row.get 12
    fileRefs := (json.fromStr refs).getD []
    taint := ← row.get 14
    replyTo := ← row.get 15 }

/-- The first row is read, if there is one. -/
def getEnvelope (json : ListJson) (messageId : String) (rows : List Row) :
    Except BusError (Option Envelope) :=
  let found := rows.filter fun row => (row.column "message_id").eq (.text messageId)
  match found.map (·.under "e") with
  | [] => .ok none
  | row :: _ => ((row.select envCols >>= envelopeFromRow json).map some).mapError dbErr

/-- A row of `deliveries`. -/
def deliveryRow (d : Bus.Delivery) : Row :=
  [("envelope_id", .text d.envelopeId), ("recipient", .text d.recipient),
    ("state", .text d.state.asStr), ("attempts", .integer d.attempts),
    ("lease_until", optional .integer d.leaseUntil), ("next_retry_at", .integer d.nextRetryAt)]

def deliveredEnvelopes (deliveries rows : List Row) : List Source :=
  join deliveries rows "d" "e" "envelope_id" "message_id"

/-- The `SELECT` of `claim_due`. -/
def claimDue (json : ListJson) (nowUnix : Int) (max : Nat) (deliveries rows : List Row) :
    Except BusError (List (Envelope × String)) :=
  let due := (deliveredEnvelopes deliveries rows).filter fun source =>
    (source.column "d" "state").eq (.text "queued") &&
      (source.column "d" "next_retry_at").atMost (.integer nowUnix)
  let read (row : Fields) : Except Error (Envelope × String) := do
    let env ← envelopeFromRow json row
    let recipient : String ← row.get 16
    pure (env, recipient)
  (queryMap (limited (Bus.asI64 max) due) (envCols ++ [("d", "recipient")]) read).mapError dbErr

/-- What is taken of the rows, and whether there are more. -/
def chosen (limit : Nat) (rows : List Envelope) : List Envelope × Bool :=
  (rows.take limit, rows.length > limit)

/-- `inbox` before it marks what it answers. -/
def inbox (json : ListJson) (recipient : String) (limit : Nat) (deliveries rows : List Row) :
    Except BusError (List Envelope × Bool) :=
  let pending := (deliveredEnvelopes deliveries rows).filter fun source =>
    (source.column "d" "recipient").eq (.text recipient) &&
      ((source.column "d" "state").eq (.text "queued") ||
        (source.column "d" "state").eq (.text "claimed"))
  let fetched := limited (Bus.asI64 (limit + 1)) (orderBy "e" "seq" pending)
  ((queryMap fetched envCols (envelopeFromRow json)).mapError dbErr).map (chosen limit)

end Envelopes

section Threads

def cellThreads : Schema where
  table := "cell_threads"
  columns := [⟨"crewd_thread_id", .text, false⟩, ⟨"cell_name", .text, true⟩,
    ⟨"engine_kind", .text, true⟩, ⟨"model", .text, false⟩, ⟨"profile", .text, false⟩,
    ⟨"engine_process_id", .integer, false⟩, ⟨"engine_thread_id", .text, false⟩,
    ⟨"engine_turn_id", .text, false⟩, ⟨"engine_session_id", .text, false⟩, ⟨"cwd", .text, true⟩,
    ⟨"worktree_path", .text, false⟩, ⟨"state", .text, true⟩, ⟨"generation", .integer, true⟩,
    ⟨"created_by_principal", .text, true⟩, ⟨"idempotency_key", .text, true⟩,
    ⟨"created_at", .text, true⟩, ⟨"updated_at", .text, true⟩]

def insertThreadCols : List String := ["crewd_thread_id", "cell_name", "engine_kind", "model",
  "profile", "engine_process_id", "engine_thread_id", "engine_turn_id", "engine_session_id", "cwd",
  "worktree_path", "state", "generation", "created_by_principal", "idempotency_key", "created_at",
  "updated_at"]

def threadParams (t : CellThread) : List (Except Error Sql.Value) :=
  [ToSql.toSql t.crewdThreadId, ToSql.toSql t.cellName, ToSql.toSql t.engineKind.asStr,
    ToSql.toSql t.model, ToSql.toSql t.profile, ToSql.toSql t.engineProcessId,
    ToSql.toSql t.engineThreadId, ToSql.toSql t.engineTurnId, ToSql.toSql t.engineSessionId,
    ToSql.toSql t.cwd, ToSql.toSql t.worktreePath, ToSql.toSql t.state.asStr,
    ToSql.toSql (t.generation : Int), ToSql.toSql t.createdByPrincipal,
    ToSql.toSql t.idempotencyKey, ToSql.toSql t.createdAt, ToSql.toSql t.updatedAt]

def threadInsert (t : CellThread) (rows : List Row) : Except BusError (List Row) :=
  (cellThreads.insert "crewd_thread_id" insertThreadCols (threadParams t) rows).mapError dbErr

def threadCols : List (String × String) := [("", "crewd_thread_id"), ("", "cell_name"),
  ("", "engine_kind"), ("", "model"), ("", "profile"), ("", "engine_process_id"),
  ("", "engine_thread_id"), ("", "engine_turn_id"), ("", "engine_session_id"), ("", "cwd"),
  ("", "worktree_path"), ("", "state"), ("", "generation"), ("", "created_by_principal"),
  ("", "idempotency_key"), ("", "created_at"), ("", "updated_at")]

/-- A thread as its row holds it, engine and state still as texts. -/
structure ThreadRaw where
  crewdThreadId : String
  cellName : String
  engineKind : String
  model : Option String
  profile : Option String
  engineProcessId : Option Int
  engineThreadId : Option String
  engineTurnId : Option String
  engineSessionId : Option String
  cwd : String
  worktreePath : Option String
  state : String
  generation : Int
  createdByPrincipal : String
  idempotencyKey : String
  createdAt : String
  updatedAt : String

def ThreadRaw.fromRow (row : Fields) : Except Error ThreadRaw := do
  pure {
    crewdThreadId := ← row.get 0
    cellName := ← row.get 1
    engineKind := ← row.get 2
    model := ← row.get 3
    profile := ← row.get 4
    engineProcessId := ← row.get 5
    engineThreadId := ← row.get 6
    engineTurnId := ← row.get 7
    engineSessionId := ← row.get 8
    cwd := ← row.get 9
    worktreePath := ← row.get 10
    state := ← row.get 11
    generation := ← row.get 12
    createdByPrincipal := ← row.get 13
    idempotencyKey := ← row.get 14
    createdAt := ← row.get 15
    updatedAt := ← row.get 16 }

def ThreadRaw.intoThread (raw : ThreadRaw) : Except BusError CellThread :=
  match EngineKind.fromDbStr raw.engineKind with
  | none => .error (.internal s!"unknown engine kind: {raw.engineKind}")
  | some engineKind =>
    match ThreadState.fromDbStr raw.state with
    | none => .error (.internal s!"unknown thread state: {raw.state}")
    | some state => .ok {
        crewdThreadId := raw.crewdThreadId
        cellName := raw.cellName
        engineKind := engineKind
        model := raw.model
        profile := raw.profile
        engineProcessId := raw.engineProcessId
        engineThreadId := raw.engineThreadId
        engineTurnId := raw.engineTurnId
        engineSessionId := raw.engineSessionId
        cwd := raw.cwd
        worktreePath := raw.worktreePath
        state := state
        generation := asU32 raw.generation
        createdByPrincipal := raw.createdByPrincipal
        idempotencyKey := raw.idempotencyKey
        createdAt := raw.createdAt
        updatedAt := raw.updatedAt }

def threadGet (id : String) (rows : List Row) : Except BusError (Option CellThread) :=
  let found := rows.filter fun row => (row.column "crewd_thread_id").eq (.text id)
  match queryRow (found.map (·.under "")) threadCols ThreadRaw.fromRow with
  | .ok raw => raw.intoThread.map some
  | .error .queryReturnedNoRows => .ok none
  | .error e => .error (dbErr e)

end Threads

section Jobs

def cellJobs : Schema where
  table := "cell_jobs"
  columns := [⟨"job_id", .text, false⟩, ⟨"crewd_thread_id", .text, true⟩,
    ⟨"cell_name", .text, true⟩, ⟨"payload", .text, true⟩, ⟨"state", .text, true⟩,
    ⟨"lease_expires_at", .text, false⟩, ⟨"accepted_by_engine_at", .text, false⟩,
    ⟨"engine_turn_id", .text, false⟩, ⟨"created_at", .text, true⟩,
    ⟨"enqueue_seq", .integer, true⟩]

def insertJobCols : List String := ["job_id", "crewd_thread_id", "cell_name", "payload", "state",
  "lease_expires_at", "accepted_by_engine_at", "engine_turn_id", "created_at", "enqueue_seq"]

def jobParams (job : CellJob) (enqueueSeq : Int) : List (Except Error Sql.Value) :=
  [ToSql.toSql job.jobId, ToSql.toSql job.crewdThreadId, ToSql.toSql job.cellName,
    ToSql.toSql job.payload, ToSql.toSql job.state.asStr, ToSql.toSql job.leaseExpiresAt,
    ToSql.toSql job.acceptedByEngineAt, ToSql.toSql job.engineTurnId, ToSql.toSql job.createdAt,
    ToSql.toSql enqueueSeq]

/-- The end of `job_enqueue_inner`: the job for the number that the table gave, and its
row. -/
def jobInsert (jobId threadId cell payload createdAt : String) (enqueueSeq : Int)
    (rows : List Row) : Except BusError (CellJob × List Row) := do
  let job : CellJob := ⟨jobId, threadId, cell, payload, .queued, none, none, none, createdAt,
    asU64 enqueueSeq⟩
  let rows ← (cellJobs.insert "job_id" insertJobCols (jobParams job enqueueSeq) rows).mapError dbErr
  pure (job, rows)

def jobCols : List (String × String) := [("", "job_id"), ("", "crewd_thread_id"),
  ("", "cell_name"), ("", "payload"), ("", "state"), ("", "lease_expires_at"),
  ("", "accepted_by_engine_at"), ("", "engine_turn_id"), ("", "created_at"), ("", "enqueue_seq")]

structure JobRaw where
  jobId : String
  crewdThreadId : String
  cellName : String
  payload : String
  state : String
  leaseExpiresAt : Option String
  acceptedByEngineAt : Option String
  engineTurnId : Option String
  createdAt : String
  enqueueSeq : Int

def JobRaw.fromRow (row : Fields) : Except Error JobRaw := do
  pure {
    jobId := ← row.get 0
    crewdThreadId := ← row.get 1
    cellName := ← row.get 2
    payload := ← row.get 3
    state := ← row.get 4
    leaseExpiresAt := ← row.get 5
    acceptedByEngineAt := ← row.get 6
    engineTurnId := ← row.get 7
    createdAt := ← row.get 8
    enqueueSeq := ← row.get 9 }

def JobRaw.intoJob (raw : JobRaw) : Except BusError CellJob :=
  match JobState.fromDbStr raw.state with
  | none => .error (.internal s!"unknown job state: {raw.state}")
  | some state => .ok {
      jobId := raw.jobId
      crewdThreadId := raw.crewdThreadId
      cellName := raw.cellName
      payload := raw.payload
      state := state
      leaseExpiresAt := raw.leaseExpiresAt
      acceptedByEngineAt := raw.acceptedByEngineAt
      engineTurnId := raw.engineTurnId
      createdAt := raw.createdAt
      enqueueSeq := asU64 raw.enqueueSeq }

def jobsForThread (threadId : String) (rows : List Row) : Except BusError (List CellJob) :=
  let found := rows.filter fun row => (row.column "crewd_thread_id").eq (.text threadId)
  (orderBy "" "enqueue_seq" (found.map (·.under ""))).mapM fun source => do
    let raw ← (source.select jobCols >>= JobRaw.fromRow).mapError dbErr
    raw.intoJob

end Jobs

section Cells

def cells : Schema where
  table := "cells"
  columns := [⟨"name", .text, false⟩, ⟨"engine", .text, true⟩, ⟨"model", .text, false⟩,
    ⟨"profile", .text, false⟩, ⟨"cwd", .text, true⟩, ⟨"worktree_default", .integer, true⟩,
    ⟨"memory_device", .text, false⟩, ⟨"created_at", .text, true⟩]

def insertCellCols : List String := ["name", "engine", "model", "profile", "cwd",
  "worktree_default", "memory_device", "created_at"]

/-- `as i64` of a truth value. -/
def boolI64 (b : Bool) : Int := if b then 1 else 0

def cellParams (d : CellDef) : List (Except Error Sql.Value) :=
  [ToSql.toSql d.name, ToSql.toSql d.engine.asStr, ToSql.toSql d.model, ToSql.toSql d.profile,
    ToSql.toSql d.cwd, ToSql.toSql (boolI64 d.worktreeDefault), ToSql.toSql d.memoryDevice,
    ToSql.toSql d.createdAt]

/-- The `INSERT` of `cell_register`. -/
def cellInsert (d : CellDef) (rows : List Row) : Except BusError (List Row) :=
  (cells.insert "name" insertCellCols (cellParams d) rows).mapError dbErr

def cellCols : List (String × String) := [("", "name"), ("", "engine"), ("", "model"),
  ("", "profile"), ("", "cwd"), ("", "worktree_default"), ("", "memory_device"),
  ("", "created_at")]

/-- What `cell_get` reads from the row. -/
structure CellRaw where
  name : String
  engineStr : String
  model : Option String
  profile : Option String
  cwd : String
  wd : Int
  memoryDevice : Option String
  createdAt : String

def CellRaw.fromRow (row : Fields) : Except Error CellRaw := do
  pure {
    name := ← row.get 0
    engineStr := ← row.get 1
    model := ← row.get 2
    profile := ← row.get 3
    cwd := ← row.get 4
    wd := ← row.get 5
    memoryDevice := ← row.get 6
    createdAt := ← row.get 7 }

def CellRaw.intoCell (raw : CellRaw) : Except BusError CellDef :=
  match EngineKind.fromDbStr raw.engineStr with
  | none => .error (.internal s!"unknown engine kind: {raw.engineStr}")
  | some engine => .ok {
      name := raw.name
      engine := engine
      model := raw.model
      profile := raw.profile
      cwd := raw.cwd
      worktreeDefault := raw.wd ≠ 0
      memoryDevice := raw.memoryDevice
      createdAt := raw.createdAt }

def cellGet (name : String) (rows : List Row) : Except BusError (Option CellDef) :=
  let found := rows.filter fun row => (row.column "name").eq (.text name)
  match queryRow (found.map (·.under "")) cellCols CellRaw.fromRow with
  | .ok raw => raw.intoCell.map some
  | .error .queryReturnedNoRows => .ok none
  | .error e => .error (dbErr e)

end Cells
end Crewd.Rows
