import Crewd.Rows
import Crewd.Bus.Backoff
import Crewd.Chain.Canonical

/-! What is stored is read back. Tables of rows stand for lists of envelopes, threads, jobs
and cells; every `INSERT` adds the row of its value, and every `SELECT` answers what the
same query answers on the list. -/
namespace Crewd.Rows
open Sql Fabric Table

section Numbers

theorem asU64_fits {n : Nat} (fits : n < 2 ^ 64) : asU64 n = n := by
  rw [asU64, BitVec.toNat_ofInt]
  omega

theorem asU32_fits {n : Nat} (fits : n < 2 ^ 32) : asU32 n = n := by
  rw [asU32, BitVec.toNat_ofInt]
  omega

theorem parseKind_asStr (kind : Kind) : parseKind kind.asStr = kind := by
  cases kind <;> rfl

theorem parseMsgType_asStr (msgType : MsgType) : parseMsgType msgType.asStr = msgType := by
  cases msgType <;> rfl

theorem asStr_eq_iff (state state' : Bus.DeliveryState) :
    state.asStr = state'.asStr ↔ state = state' := by
  cases state <;> cases state' <;> decide

end Numbers

section Envelopes
variable {json : ListJson} {env : Envelope} {envs : List Envelope} {st : Bus.Store}

def envelopeRow (json : ListJson) (env : Envelope) : Row :=
  [("message_id", .text env.messageId), ("spec_version", .text env.specVersion),
    ("ask_id", optional .text env.askId), ("from_cell", .text env.fromCell),
    ("to_cell", optional .text env.toCell), ("kind", .text env.kind.asStr),
    ("msg_type", .text env.msgType.asStr),
    ("principal_capabilities", .text (json.toStr env.principalCapabilities)),
    ("created_at", .text env.createdAt), ("expires_at", .text env.expiresAt),
    ("seq", .integer env.seq), ("idempotency_key", .text env.idempotencyKey),
    ("body", .text env.body), ("file_refs", .text (json.toStr env.fileRefs)),
    ("taint", .text env.taint), ("reply_to", optional .text env.replyTo)]

theorem envelopeRow_keeps : Keeps (envelopeRow json) "message_id" (·.messageId) :=
  fun _ => rfl

theorem envelopes_row (fits : env.seq < 2 ^ 63) :
    envelopes.row insertEnvelopeCols (envelopeParams json env) = .ok (envelopeRow json env) := by
  apply row_eq ((envelopeRow json env).map Prod.snd)
  · simp [envelopeParams, envelopeRow, toSql_unsigned fits]
  · rfl
  · rfl
  · rfl
  · simp [envelopes, envelopeRow, admits_optional]

theorem envelopeFromRow_row (reads : json.RoundTrips) (fits : env.seq < 2 ^ 63) (more : Fields) :
    envelopeFromRow json (envelopeRow json env ++ more) = .ok env := by
  have seq := asU64_fits (Nat.lt_trans fits (by decide))
  simp [envelopeFromRow, envelopeRow, Fields.get, reads _, parseKind_asStr, parseMsgType_asStr, seq,
    bind, Except.bind]
  rfl

theorem envelope_reads (reads : json.RoundTrips) (fits : env.seq < 2 ^ 63) :
    ((envelopeRow json env).under "e").select envCols >>= envelopeFromRow json = .ok env := by
  have selected : ((envelopeRow json env).under "e").select envCols =
      .ok (envelopeRow json env ++ []) := rfl
  rw [selected]
  exact envelopeFromRow_row reads fits []

theorem insertEnvelope_rows (fits : env.seq < 2 ^ 63) :
    insertEnvelope json env (envs.map (envelopeRow json)) =
      .ok ((replaceInto (·.messageId = env.messageId) env envs).map (envelopeRow json)) := by
  rw [insertEnvelope, insertOrReplace_map envelopeRow_keeps (envelopes_row fits)]
  rfl

theorem getEnvelope_rows (reads : json.RoundTrips) {messageId : String}
    (found : envs.find? (·.messageId = messageId) = some env) (fits : env.seq < 2 ^ 63) :
    getEnvelope json messageId (envs.map (envelopeRow json)) = .ok (some env) := by
  obtain ⟨rest, first⟩ := filter_found envelopeRow_keeps found
  unfold getEnvelope
  dsimp only
  rw [first, List.map_cons]
  dsimp only
  rw [envelope_reads reads fits]
  rfl

/-- A table of envelopes: each identifier once, and every number one that was inserted. -/
structure Stored (envs : List Envelope) : Prop where
  once : (envs.map (·.messageId)).Nodup
  fits : ∀ env ∈ envs, env.seq < 2 ^ 63

theorem Stored.insert (stored : Stored envs) (fits : env.seq < 2 ^ 63) :
    Stored (replaceInto (·.messageId = env.messageId) env envs) := by
  constructor
  · rw [replaceInto, List.map_append, List.nodup_append]
    refine ⟨stored.once.sublist (List.filter_sublist.map _), List.nodup_singleton _, ?_⟩
    rintro _ old _ new rfl
    obtain ⟨e, kept, rfl⟩ := List.mem_map.mp old
    have same := List.mem_singleton.mp new
    simp [same] at kept
  · intro e member
    rcases mem_replaceInto.mp member with ⟨old, -⟩ | rfl
    · exact stored.fits e old
    · exact fits

def deliverySource (json : ListJson) (pair : Bus.Delivery × Envelope) : Source :=
  (deliveryRow pair.1).under "d" ++ (envelopeRow json pair.2).under "e"

theorem deliveryRow_keeps : Keeps deliveryRow "envelope_id" (·.envelopeId) :=
  fun _ => rfl

theorem joined_filter (st : Bus.Store) (keep : Bus.Delivery → Envelope → Bool) :
    st.joined keep = (st.joined fun _ _ => true).filter fun pair => keep pair.1 pair.2 := by
  unfold Bus.Store.joined
  rw [List.filter_filterMap]
  congr 1
  funext d
  cases st.envelope d.envelopeId with
  | none => rfl
  | some env => cases kept : keep d env <;> simp [kept, Option.filter]

theorem deliveredEnvelopes_rows (stored : Stored st.envelopes) :
    deliveredEnvelopes (st.deliveries.map deliveryRow) (st.envelopes.map (envelopeRow json)) =
      (st.joined fun _ _ => true).map (deliverySource json) := by
  rw [deliveredEnvelopes, join_map deliveryRow_keeps envelopeRow_keeps stored.once, Bus.Store.joined]
  congr 1
  apply List.filterMap_congr
  intro d _
  unfold Bus.Store.envelope
  cases st.envelopes.find? (·.messageId = d.envelopeId) <;> rfl

theorem state_queued (d : Bus.Delivery) : (d.state.asStr = "queued") ↔ d.state = .queued :=
  asStr_eq_iff d.state .queued

theorem state_claimed (d : Bus.Delivery) : (d.state.asStr = "claimed") ↔ d.state = .claimed :=
  asStr_eq_iff d.state .claimed

/-- What the conditions of the two queries look at. -/
theorem source_columns (json : ListJson) (pair : Bus.Delivery × Envelope) :
    (deliverySource json pair).column "d" "state" = .text pair.1.state.asStr ∧
    (deliverySource json pair).column "d" "recipient" = .text pair.1.recipient ∧
    (deliverySource json pair).column "d" "next_retry_at" = .integer pair.1.nextRetryAt ∧
    (deliverySource json pair).column "e" "seq" = .integer pair.2.seq :=
  ⟨rfl, rfl, rfl, rfl⟩

theorem joined_stored {keep : Bus.Delivery → Envelope → Bool} {pair : Bus.Delivery × Envelope}
    (member : pair ∈ st.joined keep) : pair.2 ∈ st.envelopes := by
  obtain ⟨d, -, found⟩ := List.mem_filterMap.mp member
  split at found
  · rename_i env there
    split at found
    · cases found
      exact List.mem_of_find?_eq_some there
    · cases found
  · cases found

/-- The joined rows that meet a condition are those of the pairs that meet it. -/
theorem deliveredEnvelopes_where {condition : Source → Bool} {keep : Bus.Delivery → Envelope → Bool}
    (stored : Stored st.envelopes)
    (same : ∀ pair, condition (deliverySource json pair) = keep pair.1 pair.2) :
    (deliveredEnvelopes (st.deliveries.map deliveryRow)
      (st.envelopes.map (envelopeRow json))).filter condition =
        (st.joined keep).map (deliverySource json) := by
  rw [deliveredEnvelopes_rows stored, joined_filter st keep, List.filter_map]
  congr 1
  apply List.filter_congr
  intro pair _
  exact same pair

theorem claimDue_rows (st : Bus.Store) (reads : json.RoundTrips) (stored : Stored st.envelopes)
    (nowUnix : Int) (max : Nat) : claimDue json nowUnix max (st.deliveries.map deliveryRow)
      (st.envelopes.map (envelopeRow json)) =
        .ok ((limited (Bus.asI64 max) (st.joined fun d _ => d.due nowUnix)).map fun pair =>
          (pair.2, pair.1.recipient)) := by
  have due : ((deliveredEnvelopes (st.deliveries.map deliveryRow)
      (st.envelopes.map (envelopeRow json))).filter fun source =>
        (source.column "d" "state").eq (.text "queued") &&
          (source.column "d" "next_retry_at").atMost (.integer nowUnix)) =
      (st.joined fun d _ => d.due nowUnix).map (deliverySource json) := by
    apply deliveredEnvelopes_where stored
    intro pair
    obtain ⟨state, -, retry, -⟩ := source_columns json pair
    simp [state, retry, Sql.Value.eq, Sql.Value.atMost, Bus.Delivery.due, state_queued]
  have read : ∀ pair ∈ limited (Bus.asI64 max) (st.joined fun d _ => d.due nowUnix),
      ((deliverySource json pair).select (envCols ++ [("d", "recipient")]) >>= fun row => do
        let env ← envelopeFromRow json row
        let recipient : String ← row.get 16
        pure (env, recipient)) = .ok (pair.2, pair.1.recipient) := by
    intro pair member
    have fits := stored.fits pair.2 (joined_stored (mem_of_limited member))
    have selected : (deliverySource json pair).select (envCols ++ [("d", "recipient")]) =
        .ok (envelopeRow json pair.2 ++ [("recipient", .text pair.1.recipient)]) := rfl
    rw [selected]
    simp only [bind, Except.bind]
    rw [envelopeFromRow_row reads fits]
    rfl
  unfold claimDue
  dsimp only
  rw [due, limited_map, queryMap_map read]
  rfl

theorem inbox_rows (st : Bus.Store) (reads : json.RoundTrips) (stored : Stored st.envelopes)
    (recipient : String) (limit : Nat) : inbox json recipient limit (st.deliveries.map deliveryRow)
      (st.envelopes.map (envelopeRow json)) =
        .ok (chosen limit (limited (Bus.asI64 (limit + 1)) (st.inboxOrder recipient))) := by
  have pending : ((deliveredEnvelopes (st.deliveries.map deliveryRow)
      (st.envelopes.map (envelopeRow json))).filter fun source =>
        (source.column "d" "recipient").eq (.text recipient) &&
          ((source.column "d" "state").eq (.text "queued") ||
            (source.column "d" "state").eq (.text "claimed"))) =
      (st.joined fun d _ => d.recipient = recipient && d.pending).map (deliverySource json) := by
    apply deliveredEnvelopes_where stored
    intro pair
    obtain ⟨state, name, -, -⟩ := source_columns json pair
    simp [state, name, Sql.Value.eq, Bus.Delivery.pending, state_queued, state_claimed]
  have order : ∀ a b, ((deliverySource json a).column "e" "seq").before
      ((deliverySource json b).column "e" "seq") = decide (a.2.seq ≤ b.2.seq) := by
    intro a b
    obtain ⟨-, -, -, first⟩ := source_columns json a
    obtain ⟨-, -, -, second⟩ := source_columns json b
    simp [first, second, Sql.Value.before, Sql.Value.atMost]
  have sorted : ((st.joined fun d _ => d.recipient = recipient && d.pending).insertionSort
      fun a b => a.2.seq ≤ b.2.seq).map Prod.snd = st.inboxOrder recipient :=
    List.map_insertionSort _ _ _ _ fun _ _ _ _ => Iff.rfl
  have read : ∀ pair ∈ limited (Bus.asI64 (limit + 1))
      ((st.joined fun d _ => d.recipient = recipient && d.pending).insertionSort
        fun a b => decide (a.2.seq ≤ b.2.seq)),
      (deliverySource json pair).select envCols >>= envelopeFromRow json = .ok (Prod.snd pair) := by
    intro pair member
    have inside := (List.mem_insertionSort _).mp (mem_of_limited member)
    have fits := stored.fits pair.2 (joined_stored inside)
    have selected : (deliverySource json pair).select envCols =
        .ok (envelopeRow json pair.2 ++ []) := rfl
    rw [selected]
    exact envelopeFromRow_row reads fits []
  unfold inbox
  dsimp only
  rw [pending, orderBy_map order, limited_map, queryMap_map read]
  simp only [decide_eq_true_eq]
  rw [← limited_map, sorted]
  rfl

theorem limited_take {α : Type} {n : Nat} (small : n < 2 ^ 63) (rows : List α) :
    limited (Bus.asI64 n) rows = rows.take n := by
  rw [Bus.asI64_of_lt small, limited, if_neg (by omega), Int.toNat_natCast]

/-- A batch of a size that an `i64` holds is the one that the store of values claims. -/
theorem claimDue_batch (st : Bus.Store) (reads : json.RoundTrips) (stored : Stored st.envelopes)
    (nowUnix : Int) {max : Nat} (small : max < 2 ^ 63) :
    claimDue json nowUnix max (st.deliveries.map deliveryRow)
      (st.envelopes.map (envelopeRow json)) =
        .ok (((st.joined fun d _ => d.due nowUnix).take max).map fun pair =>
          (pair.2, pair.1.recipient)) := by
  rw [claimDue_rows st reads stored, limited_take small]

/-- A pull reads the page of the store of values. -/
theorem inbox_page (st : Bus.Store) (reads : json.RoundTrips) (stored : Stored st.envelopes)
    (recipient : String) {limit : Nat} (small : limit + 1 < 2 ^ 63) :
    inbox json recipient limit (st.deliveries.map deliveryRow)
      (st.envelopes.map (envelopeRow json)) =
        .ok ((st.inboxOrder recipient).take limit, (st.inboxOrder recipient).length > limit) := by
  have more : min (limit + 1) (st.inboxOrder recipient).length > limit ↔
      (st.inboxOrder recipient).length > limit := by
    omega
  rw [inbox_rows st reads stored, limited_take small, chosen, List.take_take, List.length_take,
    Nat.min_eq_left (Nat.le_succ limit)]
  simp only [more]

end Envelopes

section Threads
variable {t : CellThread} {threads : List CellThread}

def threadRow (t : CellThread) : Row :=
  [("crewd_thread_id", .text t.crewdThreadId), ("cell_name", .text t.cellName),
    ("engine_kind", .text t.engineKind.asStr), ("model", optional .text t.model),
    ("profile", optional .text t.profile),
    ("engine_process_id", optional .integer t.engineProcessId),
    ("engine_thread_id", optional .text t.engineThreadId),
    ("engine_turn_id", optional .text t.engineTurnId),
    ("engine_session_id", optional .text t.engineSessionId), ("cwd", .text t.cwd),
    ("worktree_path", optional .text t.worktreePath), ("state", .text t.state.asStr),
    ("generation", .integer t.generation), ("created_by_principal", .text t.createdByPrincipal),
    ("idempotency_key", .text t.idempotencyKey), ("created_at", .text t.createdAt),
    ("updated_at", .text t.updatedAt)]

theorem threadRow_keeps : Keeps threadRow "crewd_thread_id" (·.crewdThreadId) :=
  fun _ => rfl

theorem cellThreads_row (t : CellThread) :
    cellThreads.row insertThreadCols (threadParams t) = .ok (threadRow t) := by
  apply row_eq ((threadRow t).map Prod.snd)
  · simp [threadParams, threadRow]
  · rfl
  · rfl
  · rfl
  · simp [cellThreads, threadRow, admits_optional]

theorem threadInsert_rows (new : ∀ old ∈ threads, old.crewdThreadId ≠ t.crewdThreadId) :
    threadInsert t (threads.map threadRow) = .ok ((threads ++ [t]).map threadRow) := by
  rw [threadInsert, insert_map threadRow_keeps (cellThreads_row t) new]
  rfl

def threadRaw (t : CellThread) : ThreadRaw :=
  ⟨t.crewdThreadId, t.cellName, t.engineKind.asStr, t.model, t.profile, t.engineProcessId,
    t.engineThreadId, t.engineTurnId, t.engineSessionId, t.cwd, t.worktreePath, t.state.asStr,
    t.generation, t.createdByPrincipal, t.idempotencyKey, t.createdAt, t.updatedAt⟩

theorem thread_reads (t : CellThread) :
    ((threadRow t).under "").select threadCols >>= ThreadRaw.fromRow = .ok (threadRaw t) := by
  have selected : ((threadRow t).under "").select threadCols = .ok (threadRow t) := rfl
  rw [selected]
  simp [ThreadRaw.fromRow, threadRow, threadRaw, Fields.get, bind, Except.bind]
  rfl

theorem intoThread_raw (small : t.generation < 2 ^ 32) : (threadRaw t).intoThread = .ok t := by
  simp [ThreadRaw.intoThread, threadRaw, EngineKind.fromDbStr_asStr,
    ThreadState.fromDbStr_asStr, asU32_fits small]

theorem threadGet_rows {id : String} (found : threads.find? (·.crewdThreadId = id) = some t)
    (small : t.generation < 2 ^ 32) : threadGet id (threads.map threadRow) = .ok (some t) := by
  obtain ⟨rest, first⟩ := filter_found threadRow_keeps found
  unfold threadGet
  dsimp only
  rw [first, List.map_cons, queryRow, thread_reads]
  dsimp only
  rw [intoThread_raw small]
  rfl

end Threads

section Jobs
variable {job : CellJob} {jobs : List CellJob}

def jobRow (job : CellJob) : Row :=
  [("job_id", .text job.jobId), ("crewd_thread_id", .text job.crewdThreadId),
    ("cell_name", .text job.cellName), ("payload", .text job.payload),
    ("state", .text job.state.asStr), ("lease_expires_at", optional .text job.leaseExpiresAt),
    ("accepted_by_engine_at", optional .text job.acceptedByEngineAt),
    ("engine_turn_id", optional .text job.engineTurnId), ("created_at", .text job.createdAt),
    ("enqueue_seq", .integer job.enqueueSeq)]

theorem jobRow_keeps : Keeps jobRow "job_id" (·.jobId) :=
  fun _ => rfl

theorem jobRow_keeps_thread : Keeps jobRow "crewd_thread_id" (·.crewdThreadId) :=
  fun _ => rfl

theorem cellJobs_row (job : CellJob) :
    cellJobs.row insertJobCols (jobParams job job.enqueueSeq) = .ok (jobRow job) := by
  apply row_eq ((jobRow job).map Prod.snd)
  · simp [jobParams, jobRow]
  · rfl
  · rfl
  · rfl
  · simp [cellJobs, jobRow, admits_optional]

def jobRaw (job : CellJob) : JobRaw :=
  ⟨job.jobId, job.crewdThreadId, job.cellName, job.payload, job.state.asStr, job.leaseExpiresAt,
    job.acceptedByEngineAt, job.engineTurnId, job.createdAt, job.enqueueSeq⟩

theorem job_reads (job : CellJob) :
    ((jobRow job).under "").select jobCols >>= JobRaw.fromRow = .ok (jobRaw job) := by
  have selected : ((jobRow job).under "").select jobCols = .ok (jobRow job) := rfl
  rw [selected]
  simp [JobRaw.fromRow, jobRow, jobRaw, Fields.get, bind, Except.bind]
  rfl

theorem intoJob_raw (fits : job.enqueueSeq < 2 ^ 63) : (jobRaw job).intoJob = .ok job := by
  have seq := asU64_fits (Nat.lt_trans fits (by decide))
  simp [JobRaw.intoJob, jobRaw, JobState.fromDbStr_asStr, seq]

theorem jobsForThread_rows (st : Store) (fits : ∀ job ∈ st.jobs, job.enqueueSeq < 2 ^ 63)
    (threadId : String) :
    jobsForThread threadId (st.jobs.map jobRow) = .ok (st.jobsForThread threadId) := by
  have order : ∀ a b, (((jobRow a).under "").column "" "enqueue_seq").before
      (((jobRow b).under "").column "" "enqueue_seq") = decide (a.enqueueSeq ≤ b.enqueueSeq) := by
    intro a b
    have first : ((jobRow a).under "").column "" "enqueue_seq" = .integer a.enqueueSeq := rfl
    have second : ((jobRow b).under "").column "" "enqueue_seq" = .integer b.enqueueSeq := rfl
    simp [first, second, Sql.Value.before, Sql.Value.atMost]
  have read : ∀ job ∈ (st.jobs.filter (·.crewdThreadId = threadId)).insertionSort
      (fun a b => decide (a.enqueueSeq ≤ b.enqueueSeq)),
      ((fun source : Source => do
        let raw ← (source.select jobCols >>= JobRaw.fromRow).mapError dbErr
        raw.intoJob) ∘ fun job => (jobRow job).under "") job = .ok (id job) := by
    intro job member
    have inside := List.mem_of_mem_filter ((List.mem_insertionSort _).mp member)
    simp only [Function.comp_apply, job_reads]
    exact intoJob_raw (fits job inside)
  have sources : ((fun row => Row.under "" row) ∘ jobRow) = fun job => (jobRow job).under "" := rfl
  unfold jobsForThread
  dsimp only
  rw [filter_column jobRow_keeps_thread, List.map_map, sources, orderBy_map order, List.mapM_map,
    mapM_ok read, List.map_id]
  simp only [decide_eq_true_eq]
  rfl

end Jobs

section Cells
variable {d : CellDef} {defs : List CellDef}

def cellRow (d : CellDef) : Row :=
  [("name", .text d.name), ("engine", .text d.engine.asStr), ("model", optional .text d.model),
    ("profile", optional .text d.profile), ("cwd", .text d.cwd),
    ("worktree_default", .integer (boolI64 d.worktreeDefault)),
    ("memory_device", optional .text d.memoryDevice), ("created_at", .text d.createdAt)]

theorem cellRow_keeps : Keeps cellRow "name" (·.name) :=
  fun _ => rfl

theorem cells_row (d : CellDef) : cells.row insertCellCols (cellParams d) = .ok (cellRow d) := by
  apply row_eq ((cellRow d).map Prod.snd)
  · simp [cellParams, cellRow]
  · rfl
  · rfl
  · rfl
  · simp [cells, cellRow, admits_optional]

theorem cellInsert_rows (new : ∀ old ∈ defs, old.name ≠ d.name) :
    cellInsert d (defs.map cellRow) = .ok ((defs ++ [d]).map cellRow) := by
  rw [cellInsert, insert_map cellRow_keeps (cells_row d) new]
  rfl

def cellRaw (d : CellDef) : CellRaw :=
  ⟨d.name, d.engine.asStr, d.model, d.profile, d.cwd, boolI64 d.worktreeDefault, d.memoryDevice,
    d.createdAt⟩

theorem cell_reads (d : CellDef) :
    ((cellRow d).under "").select cellCols >>= CellRaw.fromRow = .ok (cellRaw d) := by
  have selected : ((cellRow d).under "").select cellCols = .ok (cellRow d) := rfl
  rw [selected]
  simp [CellRaw.fromRow, cellRow, cellRaw, Fields.get, bind, Except.bind]
  rfl

theorem intoCell_raw (d : CellDef) : (cellRaw d).intoCell = .ok d := by
  obtain ⟨name, engine, model, profile, cwd, worktreeDefault, memoryDevice, createdAt⟩ := d
  cases worktreeDefault <;>
    simp [CellRaw.intoCell, cellRaw, EngineKind.fromDbStr_asStr, boolI64]

theorem cellGet_rows {name : String} (found : defs.find? (·.name = name) = some d) :
    cellGet name (defs.map cellRow) = .ok (some d) := by
  obtain ⟨rest, first⟩ := filter_found cellRow_keeps found
  unfold cellGet
  dsimp only
  rw [first, List.map_cons, queryRow, cell_reads]
  dsimp only
  rw [intoCell_raw]
  rfl

end Cells

section Codecs
variable {json : ListJson}

/-- The tables after `insert_envelope`. -/
def withEnvelope (st : Bus.Store) (env : Envelope) : Bus.Store :=
  { st with envelopes := replaceInto (·.messageId = env.messageId) env st.envelopes }

theorem withEnvelope_finds (st : Bus.Store) (env : Envelope) :
    (withEnvelope st env).envelope env.messageId = some env := by
  have none : (st.envelopes.filter fun old => !decide (old.messageId = env.messageId)).find?
      (·.messageId = env.messageId) = none := by
    rw [List.find?_eq_none]
    intro old kept
    have apart := (List.mem_filter.mp kept).2
    simpa using apart
  unfold Bus.Store.envelope withEnvelope replaceInto
  dsimp only
  rw [List.find?_append, none]
  simp

/-- Every delivery of the envelope is joined with it. -/
theorem joined_withEnvelope (st : Bus.Store) (env : Envelope)
    (keep : Bus.Delivery → Envelope → Bool) {d : Bus.Delivery} (known : d ∈ st.deliveries)
    (addressed : d.envelopeId = env.messageId) (e : Envelope) :
    (d, e) ∈ (withEnvelope st env).joined keep ↔ keep d env ∧ e = env := by
  have found := withEnvelope_finds st env
  unfold Bus.Store.joined
  rw [List.mem_filterMap]
  constructor
  · rintro ⟨d', -, same⟩
    split at same
    · rename_i env' there
      split at same
      · rename_i kept
        cases same
        rw [addressed, found] at there
        cases there
        exact ⟨kept, rfl⟩
      · cases same
    · cases same
  · rintro ⟨kept, rfl⟩
    refine ⟨d, known, ?_⟩
    rw [addressed, found]
    simp [kept]

theorem envelope_round_trip (reads : json.RoundTrips) {st : Bus.Store} {env : Envelope}
    (stored : Stored st.envelopes) (fits : env.seq < 2 ^ 63) :
    ∃ rows, insertEnvelope json env (st.envelopes.map (envelopeRow json)) = .ok rows ∧
      getEnvelope json env.messageId rows = .ok (some env) ∧
      (∀ nowUnix max, claimDue json nowUnix max (st.deliveries.map deliveryRow) rows =
        .ok ((limited (Bus.asI64 max) ((withEnvelope st env).joined fun d _ =>
          d.due nowUnix)).map fun pair => (pair.2, pair.1.recipient))) ∧
      ∀ recipient limit, inbox json recipient limit (st.deliveries.map deliveryRow) rows =
        .ok (chosen limit (limited (Bus.asI64 (limit + 1))
          ((withEnvelope st env).inboxOrder recipient))) := by
  have after : Stored (withEnvelope st env).envelopes := stored.insert fits
  refine ⟨_, insertEnvelope_rows fits, ?_, ?_, ?_⟩
  · exact getEnvelope_rows reads (withEnvelope_finds st env) fits
  · exact fun nowUnix max => claimDue_rows (withEnvelope st env) reads after nowUnix max
  · exact fun recipient limit => inbox_rows (withEnvelope st env) reads after recipient limit

theorem thread_round_trip {t : CellThread} {threads : List CellThread}
    (new : ∀ old ∈ threads, old.crewdThreadId ≠ t.crewdThreadId) (small : t.generation < 2 ^ 32) :
    ∃ rows, threadInsert t (threads.map threadRow) = .ok rows ∧
      threadGet t.crewdThreadId rows = .ok (some t) := by
  refine ⟨_, threadInsert_rows new, threadGet_rows ?_ small⟩
  rw [List.find?_append, List.find?_eq_none.mpr (by simpa using new)]
  simp

theorem cell_round_trip {d : CellDef} {defs : List CellDef} (new : ∀ old ∈ defs, old.name ≠ d.name) :
    ∃ rows, cellInsert d (defs.map cellRow) = .ok rows ∧ cellGet d.name rows = .ok (some d) := by
  refine ⟨_, cellInsert_rows new, cellGet_rows ?_⟩
  rw [List.find?_append, List.find?_eq_none.mpr (by simpa using new)]
  simp

/-- The job that `job_enqueue` builds for the number that it was given. -/
def queuedJob (jobId threadId cell payload createdAt : String) (enqueueSeq : Nat) : CellJob :=
  ⟨jobId, threadId, cell, payload, .queued, none, none, none, createdAt, enqueueSeq⟩

theorem jobInsert_rows {jobs : List CellJob} {jobId : String} {enqueueSeq : Nat}
    (threadId cell payload createdAt : String) (fits : enqueueSeq < 2 ^ 63)
    (new : ∀ old ∈ jobs, old.jobId ≠ jobId) :
    jobInsert jobId threadId cell payload createdAt enqueueSeq (jobs.map jobRow) =
      .ok (queuedJob jobId threadId cell payload createdAt enqueueSeq,
        (jobs ++ [queuedJob jobId threadId cell payload createdAt enqueueSeq]).map jobRow) := by
  have inserted := insert_map jobRow_keeps
    (cellJobs_row (queuedJob jobId threadId cell payload createdAt enqueueSeq)) new
  have seq := asU64_fits (Nat.lt_trans fits (by decide))
  unfold queuedJob at inserted ⊢
  unfold jobInsert
  dsimp only at inserted ⊢
  rw [seq, inserted]
  rfl

theorem job_round_trip {st : Store} {jobId : String} {enqueueSeq : Nat}
    (threadId cell payload createdAt : String) (fits : ∀ job ∈ st.jobs, job.enqueueSeq < 2 ^ 63)
    (fits' : enqueueSeq < 2 ^ 63) (new : ∀ old ∈ st.jobs, old.jobId ≠ jobId) :
    ∃ job rows, jobInsert jobId threadId cell payload createdAt enqueueSeq (st.jobs.map jobRow) =
        .ok (job, rows) ∧
      jobsForThread threadId rows =
        .ok ({ st with jobs := st.jobs ++ [job] }.jobsForThread threadId) ∧
      job ∈ { st with jobs := st.jobs ++ [job] }.jobsForThread threadId := by
  refine ⟨_, _, jobInsert_rows threadId cell payload createdAt fits' new, ?_, ?_⟩
  · apply jobsForThread_rows { st with jobs := st.jobs ++ [queuedJob jobId threadId cell payload
      createdAt enqueueSeq] }
    intro job member
    rcases List.mem_append.mp member with old | last
    · exact fits job old
    · rw [List.mem_singleton.mp last]
      exact fits'
  · rw [Store.jobsForThread, List.mem_insertionSort, List.mem_filter]
    exact ⟨by simp, decide_eq_true rfl⟩

/-- Every envelope with a number that an `i64` holds, every thread and cell, and every job
that is enqueued is the same when it is read back, by each of the queries; the lists of
texts are taken to be read back as they were written. -/
theorem row_codecs_round_trip (reads : json.RoundTrips) :
    (∀ (st : Bus.Store) (env : Envelope), Stored st.envelopes → env.seq < 2 ^ 63 →
      ∃ rows, insertEnvelope json env (st.envelopes.map (envelopeRow json)) = .ok rows ∧
        getEnvelope json env.messageId rows = .ok (some env) ∧
        (∀ nowUnix max, claimDue json nowUnix max (st.deliveries.map deliveryRow) rows =
          .ok ((limited (Bus.asI64 max) ((withEnvelope st env).joined fun d _ =>
            d.due nowUnix)).map fun pair => (pair.2, pair.1.recipient))) ∧
        (∀ recipient limit, inbox json recipient limit (st.deliveries.map deliveryRow) rows =
          .ok (chosen limit (limited (Bus.asI64 (limit + 1))
            ((withEnvelope st env).inboxOrder recipient)))) ∧
        ∀ keep, ∀ d ∈ st.deliveries, d.envelopeId = env.messageId → ∀ e,
          (d, e) ∈ (withEnvelope st env).joined keep ↔ keep d env ∧ e = env) ∧
    (∀ (threads : List CellThread) (t : CellThread),
      (∀ old ∈ threads, old.crewdThreadId ≠ t.crewdThreadId) → t.generation < 2 ^ 32 →
      ∃ rows, threadInsert t (threads.map threadRow) = .ok rows ∧
        threadGet t.crewdThreadId rows = .ok (some t)) ∧
    (∀ (defs : List CellDef) (d : CellDef), (∀ old ∈ defs, old.name ≠ d.name) →
      ∃ rows, cellInsert d (defs.map cellRow) = .ok rows ∧ cellGet d.name rows = .ok (some d)) ∧
    ∀ (st : Store) (jobId threadId cell payload createdAt : String) (enqueueSeq : Nat),
      (∀ job ∈ st.jobs, job.enqueueSeq < 2 ^ 63) → enqueueSeq < 2 ^ 63 →
      (∀ old ∈ st.jobs, old.jobId ≠ jobId) →
      ∃ job rows, jobInsert jobId threadId cell payload createdAt enqueueSeq (st.jobs.map jobRow) =
          .ok (job, rows) ∧
        jobsForThread threadId rows =
          .ok ({ st with jobs := st.jobs ++ [job] }.jobsForThread threadId) ∧
        job ∈ { st with jobs := st.jobs ++ [job] }.jobsForThread threadId := by
  refine ⟨?_, ?_, ?_, ?_⟩
  · intro st env stored fits
    obtain ⟨rows, inserted, got, claimed, pulled⟩ := envelope_round_trip reads stored fits
    refine ⟨rows, inserted, got, claimed, pulled, ?_⟩
    exact fun keep d known addressed e => joined_withEnvelope st env keep known addressed e
  · exact fun threads t new small => thread_round_trip new small
  · exact fun defs d new => cell_round_trip new
  · intro st jobId threadId cell payload createdAt enqueueSeq fits fits' new
    exact job_round_trip threadId cell payload createdAt fits fits' new

end Codecs

section Texts

/-- What stands before the closing quote, and what follows it. -/
def readText : Nat → List Char → List Char × List Char
  | 0, chars => ([], chars)
  | _ + 1, '"' :: rest => ([], rest)
  | fuel + 1, chars =>
    let (c, rest) := readEscaped chars
    let (text, after) := readText fuel rest
    (c :: text, after)

/-- The texts up to the closing bracket. -/
def readItems : Nat → List Char → Option (List String)
  | fuel + 1, '"' :: rest =>
    let (text, after) := readText rest.length rest
    match after with
    | [']'] => some [String.ofList text]
    | ',' :: later => (readItems fuel later).map (String.ofList text :: ·)
    | _ => none
  | _, _ => none

def readTexts : List Char → Option (List String)
  | ['[', ']'] => some []
  | '[' :: rest => readItems rest.length rest
  | _ => none

/-- Arrays of texts as `serde_json` writes and reads them. -/
def textsJson : ListJson where
  toStr items := String.ofList (Json.arr (items.map .str)).render
  fromStr text := readTexts text.toList

theorem readText_escaped (rest : List Char) : ∀ (text : List Char) (fuel : Nat), text.length < fuel →
    readText fuel (text.flatMap escapeChar ++ '"' :: rest) = (text, rest) := by
  intro text
  induction text with
  | nil =>
    intro fuel enough
    obtain ⟨fuel, rfl⟩ := Nat.exists_eq_add_one_of_ne_zero (by omega : fuel ≠ 0)
    rfl
  | cons c text ih =>
    intro fuel enough
    obtain ⟨fuel, rfl⟩ := Nat.exists_eq_add_one_of_ne_zero (by omega : fuel ≠ 0)
    rw [List.length_cons] at enough
    have later := ih fuel (by omega)
    rw [List.flatMap_cons, List.append_assoc, readText, readEscaped_escapeChar]
    · dsimp only
      rw [later]
    · intro tail quote
      exact escapeChar_ne_quote c _ tail quote

theorem length_le_escaped (text : List Char) : text.length ≤ (text.flatMap escapeChar).length := by
  induction text with
  | nil => exact Nat.le_refl 0
  | cons c text ih =>
    have some : 1 ≤ (escapeChar c).length := by
      rcases escapeChar_cases c with ⟨_, shape, -⟩ | ⟨_, -, shape, -⟩ | ⟨shape, -⟩ <;> simp [shape]
    rw [List.flatMap_cons, List.length_append, List.length_cons]
    omega

theorem renderItems_texts (items : List String) :
    Json.renderItems (items.map .str) = items.map quoted := by
  induction items with
  | nil => rfl
  | cons item rest ih =>
    rw [List.map_cons, List.map_cons, Json.renderItems, ih, Json.render]

theorem readItems_separated : ∀ (items : List String) (item : String) (fuel : Nat),
    items.length < fuel →
    readItems fuel (separated ((item :: items).map quoted) ++ [']']) = some (item :: items) := by
  intro items
  induction items with
  | nil =>
    intro item fuel enough
    obtain ⟨fuel, rfl⟩ := Nat.exists_eq_add_one_of_ne_zero (by omega : fuel ≠ 0)
    have text := readText_escaped [']'] item.toList
      (item.toList.flatMap escapeChar ++ '"' :: [']']).length (by
        have longer := length_le_escaped item.toList
        rw [List.length_append, List.length_cons]
        omega)
    have shape : separated ([item].map quoted) ++ [']'] =
        '"' :: (item.toList.flatMap escapeChar ++ '"' :: [']']) := by
      simp [separated, quoted]
    rw [shape, readItems, text]
    simp
  | cons next items ih =>
    intro item fuel enough
    obtain ⟨fuel, rfl⟩ := Nat.exists_eq_add_one_of_ne_zero (by omega : fuel ≠ 0)
    rw [List.length_cons] at enough
    have later := ih next fuel (by omega)
    have text := readText_escaped (',' :: (separated ((next :: items).map quoted) ++ [']']))
      item.toList (item.toList.flatMap escapeChar ++
        '"' :: ',' :: (separated ((next :: items).map quoted) ++ [']'])).length (by
        have longer := length_le_escaped item.toList
        rw [List.length_append, List.length_cons]
        omega)
    have shape : separated ((item :: next :: items).map quoted) ++ [']'] =
        '"' :: (item.toList.flatMap escapeChar ++
          '"' :: ',' :: (separated ((next :: items).map quoted) ++ [']'])) := by
      simp [separated, quoted]
    rw [shape, readItems, text]
    generalize separated ((next :: items).map quoted) ++ [']'] = tail at later
    simp [later]

theorem length_separated (items : List String) (item : String) :
    items.length < (separated ((item :: items).map quoted)).length := by
  induction items generalizing item with
  | nil => simp [separated, quoted]
  | cons next items ih =>
    have later := ih next
    rw [List.map_cons] at later ⊢
    rw [List.map_cons, separated, List.length_append, List.length_cons, List.length_cons]
    · omega
    · simp

theorem textsJson_roundTrips : textsJson.RoundTrips := by
  intro items
  cases items with
  | nil => decide
  | cons item items =>
    simp only [textsJson, String.toList_ofList, Json.render, renderItems_texts, List.cons_append]
    have longer := length_separated items item
    have all := readItems_separated items item
      (separated ((item :: items).map quoted) ++ [']']).length (by
        rw [List.length_append]
        omega)
    have opens : ∃ tail, separated ((item :: items).map quoted) ++ [']'] = '"' :: tail := by
      cases items <;> simp [separated, quoted]
    obtain ⟨tail, shape⟩ := opens
    rw [shape] at all ⊢
    exact all

end Texts

section Sample

def sampleEnvelope : Envelope :=
  ⟨"0.1", "m1", some "a1", "alice", some "bob", .ask, .evidence, ["send", "ask"],
    "2026-07-05T00:00:00Z", "2026-07-05T00:15:00Z", 2 ^ 63 - 1, "k\"1", "hi", [],
    "peer_untrusted", none⟩

def sampleThread : CellThread :=
  ⟨"t1", "~ephemeral-0001", .pi, none, some "max", some (-1), none, some "turn", none, ".", none,
    .failedUnknown, 2 ^ 32 - 1, "alice", "k1", "2026-07-05T00:00:00Z", "2026-07-05T00:00:01Z"⟩

def sampleDef : CellDef :=
  ⟨"worker-a", .fake, some "m", none, "/tmp/w", true, none, "2026-07-05T00:00:00Z"⟩

/-- The largest number, both lists, and a delivery that is due. -/
theorem row_codecs_round_trip_sample :
    (∃ rows, insertEnvelope textsJson sampleEnvelope [] = .ok rows ∧
      claimDue textsJson 5 10 [deliveryRow ⟨"m1", "bob", .queued, 0, none, 0⟩] rows =
        .ok [(sampleEnvelope, "bob")]) ∧
    (∃ rows, threadInsert sampleThread [] = .ok rows ∧ threadGet "t1" rows = .ok (some sampleThread)) ∧
    (∃ rows, cellInsert sampleDef [] = .ok rows ∧ cellGet "worker-a" rows = .ok (some sampleDef)) ∧
    ∃ job rows, jobInsert "j1" "t1" "worker-a" "p" "2026-07-05T00:00:00Z" 1 [] = .ok (job, rows) ∧
      jobsForThread "t1" rows = .ok [job] := by
  obtain ⟨envelope, thread, cell, job⟩ := row_codecs_round_trip textsJson_roundTrips
  refine ⟨?_, ?_, ?_, ?_⟩
  · obtain ⟨rows, inserted, -, claimed, -, -⟩ :=
      envelope ⟨[], [⟨"m1", "bob", .queued, 0, none, 0⟩], [], [], []⟩ sampleEnvelope
        ⟨List.nodup_nil, by simp⟩ (by decide)
    exact ⟨rows, inserted, claimed 5 10⟩
  · obtain ⟨rows, inserted, got⟩ := thread [] sampleThread (by simp) (by decide)
    exact ⟨rows, inserted, got⟩
  · obtain ⟨rows, inserted, got⟩ := cell [] sampleDef (by simp)
    exact ⟨rows, inserted, got⟩
  · obtain ⟨queued, rows, inserted, listed, member⟩ :=
      job .empty "j1" "t1" "worker-a" "p" "2026-07-05T00:00:00Z" 1 (by simp [Store.empty])
        (by decide) (by simp [Store.empty])
    refine ⟨queued, rows, inserted, listed.trans ?_⟩
    have own : queued.crewdThreadId = "t1" := by
      rw [Store.jobsForThread, List.mem_insertionSort, List.mem_filter] at member
      exact of_decide_eq_true member.2
    simp [Store.jobsForThread, Store.empty, own]

end Sample

end Crewd.Rows
