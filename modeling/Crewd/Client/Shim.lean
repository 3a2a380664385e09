import Crewd.Client.Exchange

/-! The MCP shim of a cell. It reads requests line by line, answers some of them itself and
sends the tool calls on to the daemon; each answerable request is answered once, in order and
under its own number, and the shim of a worker asks for nothing that workers may not do. -/
namespace Crewd.Client
open Server Machines

section Tools

def textSchema : Json := .obj [("type", .str "string")]

def textsSchema : Json := .obj [("items", textSchema), ("type", .str "array")]

def integerSchema : Json := .obj [("type", .str "integer")]

def engineSchema : Json := .obj [
  ("enum", .arr [.str "codex", .str "claude", .str "pi"]), ("type", .str "string")]

def profileSchema : Json := .obj [
  ("description", .str ("engine profile name defined in crewd.toml [profile.<name>], " ++
    "or \"max\" for the host default credentials")), ("type", .str "string")]

def modeSchema : Json := .obj [("default", .str "background"),
  ("enum", .arr [.str "background", .str "wait"]), ("type", .str "string")]

/-- A tool with its parameters, those that it requires, and whether it only reads. -/
def tool (name description : String) (properties : List (String × Json)) (required : List String)
    (readOnly : Bool) : Json :=
  let schema := .obj <| ("properties", .obj properties) ::
    (if required.isEmpty then [] else [("required", .arr (required.map .str))]) ++
      [("type", .str "object")]
  .obj <| (if readOnly then [("annotations", .obj [("readOnlyHint", .bool true)])] else []) ++
    [("description", .str description), ("inputSchema", schema), ("name", .str name)]

/-- The spawn surface, hidden from workers. -/
def workerHidden : List String := ["cell_spawn", "cell_send_task", "cell_cancel"]

def toolsList (workerMode : Bool) : List Json :=
  [tool "cell_send" "Send a fire-and-forget message to one cell."
      [("body", textSchema), ("file_refs", textsSchema), ("idempotency_key", textSchema),
        ("msg_type", textSchema), ("to_cell", textSchema), ("ttl_seconds", integerSchema)]
      ["to_cell", "body"] false,
    tool "cell_ask" "Open an ask ticket (non-blocking) expecting one reply."
      [("body", textSchema), ("file_refs", textsSchema), ("idempotency_key", textSchema),
        ("to_cell", textSchema), ("ttl_seconds", integerSchema)] ["to_cell", "body"] false,
    tool "cell_await" "Long-poll one ask reply (read-only)."
      [("ask_id", textSchema), ("timeout_ms", integerSchema)] ["ask_id"] true,
    tool "cell_reply" "Post the single reply to an ask addressed to this cell."
      [("ask_id", textSchema), ("body", textSchema), ("file_refs", textsSchema),
        ("idempotency_key", textSchema)] ["ask_id", "body"] false,
    tool "cell_inbox" "Pull pending messages addressed to this cell (read-only)."
      [("limit", integerSchema)] [] true,
    tool "cell_list" "List registered cells + fabric section (read-only)." [] [] true,
    tool "cell_broadcast" "Fan-out to permitted recipients (explicit broadcast grant)."
      [("body", textSchema), ("file_refs", textsSchema), ("idempotency_key", textSchema),
        ("msg_type", textSchema), ("ttl_seconds", integerSchema)] ["body"] false,
    tool "cell_status" "Thread state + jobs + engine_proc_state (read-only)."
      [("crewd_thread_id", textSchema)] [] true,
    tool "cell_result"
      "Structured result of a thread, identity fields separate (read-only)."
      [("crewd_thread_id", textSchema)] ["crewd_thread_id"] true] ++
  if workerMode then [] else
    [tool "cell_spawn" "Spawn/launch a cell worker thread (engine + profile + task)."
        [("cell", textSchema), ("cwd", textSchema), ("engine", engineSchema),
          ("idempotency_key", textSchema), ("mode", modeSchema), ("model", textSchema),
          ("profile", profileSchema), ("task", textSchema), ("worktree", textSchema)]
        ["task", "idempotency_key"] false,
      tool "cell_send_task" "Send a follow-up task to an existing thread."
        [("crewd_thread_id", textSchema), ("idempotency_key", textSchema), ("message", textSchema)]
        ["crewd_thread_id", "message"] false,
      tool "cell_cancel" "Cancel in-flight jobs + interrupt a thread."
        [("crewd_thread_id", textSchema)] ["crewd_thread_id"] false]

end Tools

/-- What the shim does about a request: nothing, an answer of its own, or a call of the daemon
under the number of the request. -/
inductive Reply where
  | silent
  | say (response : Json)
  | forward (id : Json) (name : String) (arguments : Json)

section Code

def rpcResult (id result : Json) : Json :=
  .obj [("id", id), ("jsonrpc", .str "2.0"), ("result", result)]

def methodNotFound (id : Json) (name : String) : Json := .obj [
  ("error", .obj [("code", .neg 32600), ("message", .str ("method not found: " ++ name))]),
  ("id", id), ("jsonrpc", .str "2.0")]

def toolResult (id : Json) (text : List Char) (isError : Bool) : Json := rpcResult id (.obj [
  ("content", .arr [.obj [("text", .str (.ofList text)), ("type", .str "text")]]),
  ("isError", .bool isError)])

def errorText (id : Json) (code message : String) : Json :=
  toolResult id (Json.obj [("code", .str code), ("message", .str message)]).render true

def initialized : Json := .obj [("capabilities", .obj [("tools", .obj [])]),
  ("protocolVersion", .str "2024-11-05"),
  ("serverInfo", .obj [("name", .str "crew-mcp"), ("version", .str "0.1")])]

/-- `handle_tools_call`, up to the call of the daemon. -/
def handleToolsCall (workerMode : Bool) (id params : Json) : Reply :=
  let name := (params.getStr "name").getD ""
  if workerMode ∧ name ∈ workerHidden then .say (methodNotFound id name)
  else
    let arguments := (params.get "arguments").getD (.obj [])
    if (arguments.get "from_cell").isSome then .say (errorText id "E_INTERNAL"
      "from_cell is daemon-derived and must not be supplied (SPEC I3.2)")
    else .forward id name arguments

def finish (id : Json) : Except WireError Json → Json
  | .ok result => toolResult id result.render false
  | .error e => errorText id e.code e.message

def reply (workerMode : Bool) (req : Json) : Reply :=
  let id := req.get "id"
  let method := (req.getStr "method").getD ""
  let params := (req.get "params").getD .null
  if method = "initialize" then .say (rpcResult (id.getD .null) initialized)
  else if method = "tools/list" then
    .say (rpcResult (id.getD .null) (.obj [("tools", .arr (toolsList workerMode))]))
  else match id with
    | none => .silent
    | some id =>
      if method = "tools/call" then handleToolsCall workerMode id params
      else .say (methodNotFound id method)

end Code

/-- The shim on its connection, with the requests that it has read, and the responses. -/
structure Shim where
  link : Link
  calling : Option Json
  heard : List Json
  written : List Json

/-- Whether a step of the link is none of the client's own requests. -/
def LinkStep.quiet : LinkStep → Bool
  | .connect _ | .call _ _ => false
  | _ => true

/-- The shim connects, or reads a line; or its connection goes on. -/
inductive ShimStep where
  | connect (proof : ClientProof)
  | line (text : List Char)
  | link (s : LinkStep) (quiet : s.quiet = true)

section Code
variable [Platform] [WireReader] [SerdeJson]

/-- Whether `serve` is at its loop and reads the next line. -/
def ready (l : Link) : Bool := l.waiting.isNone && match l.returned.head? with
  | some (.ok _) => true
  | _ => false

/-- A call that has returned is responded to. -/
def Shim.settle (s : Shim) : Shim :=
  match s.calling, s.link.waiting, s.link.returned.getLast? with
  | some id, none, some result =>
    { s with calling := none, written := s.written ++ [finish id result] }
  | _, _, _ => s

def Shim.step (host : Host) (workerMode : Bool) (s : Shim) : ShimStep → Shim
  | .connect proof => { s with link := s.link.step host (.connect proof) }
  | .line text =>
    if ready s.link then
      match SerdeJson.fromStr (trimEnd text) with
      | none => s
      | some req =>
        let read := { s with heard := s.heard ++ [req.1] }
        match reply workerMode req.1 with
        | .silent => read
        | .say response => { read with written := s.written ++ [response] }
        | .forward id name arguments => Shim.settle { read with
            calling := some id
            link := s.link.step host (.call name arguments) }
    else s
  | .link event _ => Shim.settle { s with link := s.link.step host event }

def Shim.start (peer : PeerCred) : Shim := ⟨.start peer, none, [], []⟩

end Code

section Responses
variable {workerMode : Bool}

/-- The call that a request is forwarded as. -/
def Reply.call : Reply → Option WireRequest
  | .forward _ name arguments => some ⟨2, name, arguments⟩
  | .silent | .say _ => none

/-- A response, or the number of a request that a result is awaited for. -/
def Reply.slot : Reply → Option (Json ⊕ Json)
  | .silent => none
  | .say response => some (.inl response)
  | .forward id _ _ => some (.inr id)

def calls (workerMode : Bool) (heard : List Json) : List WireRequest :=
  heard.filterMap fun req => (reply workerMode req).call

def slots (workerMode : Bool) (heard : List Json) : List (Json ⊕ Json) :=
  heard.filterMap fun req => (reply workerMode req).slot

/-- The responses, given the results of the calls, up to the call that has none. -/
def fill : List (Json ⊕ Json) → List (Except WireError Json) → List Json
  | [], _ => []
  | .inl response :: rest, results => response :: fill rest results
  | .inr _ :: _, [] => []
  | .inr id :: rest, result :: results => finish id result :: fill rest results

def awaited (slots : List (Json ⊕ Json)) : Nat := slots.countP Sum.isRight

/-- With a result for each call so far, the responses so far stay as they are. -/
theorem fill_append {first : List (Json ⊕ Json)} {results : List (Except WireError Json)}
    (even : awaited first = results.length) (more : List (Json ⊕ Json))
    (later : List (Except WireError Json)) :
    fill (first ++ more) (results ++ later) = fill first results ++ fill more later := by
  induction first generalizing results with
  | nil =>
    obtain rfl := List.length_eq_zero_iff.mp even.symm
    rfl
  | cons slot rest ih =>
    cases slot with
    | inl response =>
      have rest' : awaited rest = results.length := even
      rw [List.cons_append, fill, fill, ih rest', List.cons_append]
    | inr id =>
      cases results with
      | nil => exact absurd ((List.countP_cons_of_pos rfl).symm.trans even) (Nat.succ_ne_zero _)
      | cons result results =>
        have rest' : awaited rest = results.length :=
          Nat.succ.inj ((List.countP_cons_of_pos rfl).symm.trans even)
        rw [List.cons_append, List.cons_append, fill, fill, ih rest', List.cons_append]

theorem calls_concat (workerMode : Bool) (heard : List Json) (req : Json) :
    calls workerMode (heard ++ [req]) = calls workerMode heard ++ (reply workerMode req).call.toList := by
  rw [calls, List.filterMap_append]
  cases call : (reply workerMode req).call <;> simp [calls, call]

theorem slots_concat (workerMode : Bool) (heard : List Json) (req : Json) :
    slots workerMode (heard ++ [req]) = slots workerMode heard ++ (reply workerMode req).slot.toList := by
  rw [slots, List.filterMap_append]
  cases slot : (reply workerMode req).slot <;> simp [slots, slot]

/-- One result is awaited for each call. -/
theorem awaited_slots (workerMode : Bool) (heard : List Json) :
    awaited (slots workerMode heard) = (calls workerMode heard).length := by
  induction heard using List.reverseRecOn with
  | nil => rfl
  | append_singleton past req ih =>
    rw [slots_concat, calls_concat, awaited, List.countP_append, List.length_append, ← ih]
    cases reply workerMode req <;> rfl

end Responses

section Steps
variable [Platform] [WireReader] {host : Host} {l : Link}

/-- What the link does by itself: a call returns, or nothing is asked and nothing returned. -/
theorem quiet_step (host : Host) {event : LinkStep} (quiet : event.quiet = true) (l : Link) :
    (l.step host event).asked = l.asked ∧
      ((l.step host event).returned = l.returned ∧
          (l.step host event).waiting.isSome = l.waiting.isSome ∨
        l.waiting.isSome = true ∧ (l.step host event).waiting = none ∧
          ∃ result, (l.step host event).returned = l.returned ++ [result]) := by
  cases event with
  | connect proof => cases quiet
  | call method params => cases quiet
  | read size =>
    have effect := read_effect host l size
    generalize l.step host (.read size) = next at effect ⊢
    cases effect with
    | none => exact ⟨rfl, .inl ⟨rfl, rfl⟩⟩
    | ended waits => exact ⟨rfl, .inr ⟨by rw [waits]; rfl, rfl, _, rfl⟩⟩
    | line waits => exact ⟨rfl, .inr ⟨by rw [waits]; rfl, rfl, _, rfl⟩⟩
    | part waits => exact ⟨rfl, .inl ⟨rfl, by rw [waits]; rfl⟩⟩
  | hear size =>
    rw [Link.step]
    split <;> exact ⟨rfl, .inl ⟨rfl, rfl⟩⟩
  | frame daemon now =>
    rw [Link.step]
    split <;> exact ⟨rfl, .inl ⟨rfl, rfl⟩⟩
  | answer daemon handled written =>
    rw [Link.step]
    split
    · dsimp only
      split <;> exact ⟨rfl, .inl ⟨rfl, rfl⟩⟩
    · exact ⟨rfl, .inl ⟨rfl, rfl⟩⟩
  | lose kept => exact ⟨rfl, .inl ⟨rfl, rfl⟩⟩

/-- A call by a client that does not wait is sent, or fails at once. -/
theorem call_step (host : Host) (silent : l.waiting = none) (connected : l.asked ≠ []) (method : String)
    (params : Json) : (l.step host (.call method params)).asked = l.asked ++ [⟨2, method, params⟩] ∧
      ((l.step host (.call method params)).waiting.isSome = true ∧
          (l.step host (.call method params)).returned = l.returned ∨
        (l.step host (.call method params)).waiting = none ∧
          ∃ result, (l.step host (.call method params)).returned = l.returned ++ [result]) := by
  have some : ¬ l.asked.isEmpty = true := by simpa using connected
  rw [Link.step, if_neg some, Link.ask, silent]
  dsimp only
  split
  · exact ⟨rfl, .inr ⟨rfl, _, rfl⟩⟩
  · exact ⟨rfl, .inl ⟨rfl, rfl⟩⟩

variable [SerdeJson] {workerMode : Bool} {s : Shim}

omit [Platform] [WireReader] [SerdeJson] in
@[simp] theorem settle_link (s : Shim) : s.settle.link = s.link := by
  rw [Shim.settle]
  split <;> rfl

omit [Platform] [WireReader] [SerdeJson] in
@[simp] theorem settle_heard (s : Shim) : s.settle.heard = s.heard := by
  rw [Shim.settle]
  split <;> rfl

/-- The connection goes on, and nothing is read meanwhile. -/
theorem link_goes_on (host : Host) (workerMode : Bool)
    (events : List {event : LinkStep // event.quiet = true}) (s : Shim) :
    (after (Shim.step host workerMode) s (events.map fun event => .link event.1 event.2)).link =
        after (Link.step host) s.link (events.map Subtype.val) ∧
      (after (Shim.step host workerMode) s
        (events.map fun event => .link event.1 event.2)).heard = s.heard := by
  induction events generalizing s with
  | nil => exact ⟨rfl, rfl⟩
  | cons event rest ih =>
    obtain ⟨link, heard⟩ := ih (Shim.settle { s with link := s.link.step host event.1 })
    rw [settle_link] at link
    rw [settle_heard] at heard
    exact ⟨link, heard⟩

/-- The connection carries the calls of the requests that were read, and what has been written
is made of their results. -/
structure Kept (workerMode : Bool) (s : Shim) : Prop where
  asked : s.link.asked.tail = calls workerMode s.heard
  written : s.written = fill (slots workerMode s.heard) s.link.returned.tail
  started : s.heard ≠ [] → s.link.returned ≠ []
  joined : s.link.returned ≠ [] → s.link.asked ≠ []
  sent : s.link.waiting.isSome = true → s.link.asked ≠ []
  idle : s.calling = none → s.link.returned.tail.length = (calls workerMode s.heard).length ∧
    (s.link.waiting = none ∨ s.link.returned = [])
  busy : ∀ id, s.calling = some id → s.link.waiting.isSome = true ∧
    ∃ before, slots workerMode s.heard = before ++ [.inr id] ∧
      awaited before = s.link.returned.tail.length

omit [Platform] [WireReader] [SerdeJson] in
theorem tail_concat {α : Type} {xs : List α} (some : xs ≠ []) (ys : List α) :
    (xs ++ ys).tail = xs.tail ++ ys := List.tail_append_of_ne_nil some

omit [Platform] [WireReader] [SerdeJson] in
theorem settle_waiting (waits : s.link.waiting.isSome = true) : s.settle = s := by
  obtain ⟨buf, waits⟩ := Option.isSome_iff_exists.mp waits
  rw [Shim.settle, waits]
  cases s.calling <;> rfl

omit [Platform] [WireReader] [SerdeJson] in
theorem settle_idle (idle : s.calling = none) : s.settle = s := by
  rw [Shim.settle, idle]

omit [Platform] [WireReader] [SerdeJson] in
theorem settle_done {id : Json} {past : List (Except WireError Json)}
    {result : Except WireError Json} (calls : s.calling = some id) (silent : s.link.waiting = none)
    (returned : s.link.returned = past ++ [result]) :
    s.settle = { s with calling := none, written := s.written ++ [finish id result] } := by
  rw [Shim.settle, calls, silent, returned, List.getLast?_concat]

omit [Platform] [WireReader] [SerdeJson] in
/-- The responses so far, when the results of all calls are there. -/
theorem Kept.more (kept : Kept workerMode s) (idle : s.calling = none)
    (slot : List (Json ⊕ Json)) (results : List (Except WireError Json)) :
    fill (slots workerMode s.heard ++ slot) (s.link.returned.tail ++ results) =
      s.written ++ fill slot results := by
  have even := (awaited_slots workerMode s.heard).trans (kept.idle idle).1.symm
  rw [fill_append even, ← kept.written]

theorem Kept.connect (kept : Kept workerMode s) (proof : ClientProof) :
    Kept workerMode (s.step host workerMode (.connect proof)) := by
  rw [Shim.step, Link.step]
  split
  · next first =>
    have fresh : s.link.asked = [] := List.isEmpty_iff.mp first
    have none : s.link.returned = [] := by
      by_contra some
      exact kept.joined some fresh
    have unheard : s.heard = [] := by
      by_contra some
      exact kept.started some none
    have idle : s.calling = Option.none := by
      cases calling : s.calling with
      | none => rfl
      | some id =>
        obtain ⟨_, before, shape, _⟩ := kept.busy id calling
        rw [unheard] at shape
        simp [slots] at shape
    have silent : s.link.waiting = Option.none := by
      by_contra waits
      exact kept.sent (Option.isSome_iff_ne_none.mpr waits) fresh
    have written := kept.written
    rw [none] at written
    rw [Link.ask, silent]
    dsimp only
    split
    · constructor <;> simp_all [calls]
    · constructor <;> simp_all [calls]
  · exact kept

theorem Kept.link (kept : Kept workerMode s) {event : LinkStep} (quiet : event.quiet = true) :
    Kept workerMode (s.step host workerMode (.link event quiet)) := by
  obtain ⟨asked, ⟨returned, waiting⟩ | ⟨waits, silent, result, returned⟩⟩ :=
    quiet_step host quiet s.link
  · have still : Shim.settle { s with link := s.link.step host event } =
        { s with link := s.link.step host event } := by
      rcases Option.eq_none_or_eq_some s.calling with calling | ⟨id, calling⟩
      · exact settle_idle calling
      · exact settle_waiting (waiting.trans (kept.busy id calling).1)
    rw [Shim.step, still]
    constructor
    · exact asked ▸ kept.asked
    · exact returned ▸ kept.written
    · exact returned ▸ kept.started
    · exact returned ▸ asked ▸ kept.joined
    · exact fun sent => asked ▸ kept.sent (waiting ▸ sent)
    · intro idle
      obtain ⟨even, rest⟩ := kept.idle idle
      refine ⟨returned ▸ even, rest.imp (fun silent => ?_) fun none => returned ▸ none⟩
      rw [silent] at waiting
      simpa using waiting
    · intro id calling
      obtain ⟨waits, before, shape, even⟩ := kept.busy id calling
      exact ⟨waiting.trans waits, before, shape, returned ▸ even⟩
  · have connected := kept.sent waits
    rcases Option.eq_none_or_eq_some s.calling with calling | ⟨id, calling⟩
    · obtain ⟨even, rest⟩ := kept.idle calling
      have none : s.link.returned = [] := rest.resolve_left fun silent => by
        rw [silent] at waits
        cases waits
      have unheard : s.heard = [] := by
        by_contra some
        exact kept.started some none
      have written := kept.written
      rw [none] at written
      have step : s.step host workerMode (.link event quiet) =
          { s with link := s.link.step host event } := settle_idle calling
      rw [step]
      constructor
      · exact asked ▸ kept.asked
      · rw [returned, none]
        exact written
      · exact fun some => absurd unheard some
      · exact fun _ => asked ▸ connected
      · exact fun _ => asked ▸ connected
      · intro _
        rw [returned, none, unheard]
        exact ⟨rfl, .inl silent⟩
      · intro id busy
        cases calling.symm.trans busy
    · obtain ⟨_, before, shape, even⟩ := kept.busy id calling
      have some : s.heard ≠ [] := by
        intro none
        rw [none] at shape
        simp [slots] at shape
      have results : (s.link.step host event).returned.tail = s.link.returned.tail ++ [result] := by
        rw [returned, tail_concat (kept.started some)]
      have written : s.written = fill before s.link.returned.tail := by
        have whole := fill_append even [.inr id] []
        rw [List.append_nil] at whole
        rw [kept.written, shape, whole]
        exact List.append_nil _
      have step : s.step host workerMode (.link event quiet) = { s with
          link := s.link.step host event
          calling := none
          written := s.written ++ [finish id result] } :=
        settle_done calling silent returned
      rw [step]
      constructor
      · exact asked ▸ kept.asked
      · rw [results, shape, fill_append even, ← written]
        rfl
      · intro _
        rw [returned]
        simp
      · exact fun _ => asked ▸ connected
      · exact fun _ => asked ▸ connected
      · intro _
        have count := awaited_slots workerMode s.heard
        rw [shape, awaited, List.countP_append] at count
        refine ⟨?_, .inl silent⟩
        rw [results, ← count, List.length_append, ← even]
        rfl
      · intro id busy
        cases busy

omit [Platform] [WireReader] [SerdeJson] in
/-- At its loop the shim is connected and no call is under way. -/
theorem Kept.at_loop (kept : Kept workerMode s) (loop : ready s.link = true) :
    s.link.waiting = none ∧ s.link.returned ≠ [] ∧ s.link.asked ≠ [] ∧ s.calling = none := by
  rw [ready, Bool.and_eq_true, Option.isNone_iff_eq_none] at loop
  obtain ⟨silent, welcome⟩ := loop
  have greeted : s.link.returned ≠ [] := by
    intro none
    rw [none] at welcome
    cases welcome
  refine ⟨silent, greeted, kept.joined greeted, ?_⟩
  by_contra busy
  obtain ⟨id, calling⟩ := Option.ne_none_iff_exists'.mp busy
  have waits := (kept.busy id calling).1
  rw [silent] at waits
  cases waits

omit [Platform] [WireReader] [SerdeJson] in
/-- A request that the shim answers by itself, or not at all. -/
theorem Kept.replied (kept : Kept workerMode s) (greeted : s.link.returned ≠ [])
    (idle : s.calling = none) {req : Json} (uncalled : (reply workerMode req).call = none)
    {written : List Json}
    (responds : s.written ++ fill (reply workerMode req).slot.toList [] = written) :
    Kept workerMode { s with heard := s.heard ++ [req], written } := by
  have same : calls workerMode (s.heard ++ [req]) = calls workerMode s.heard := by
    rw [calls_concat, uncalled]
    exact List.append_nil _
  have all := kept.more idle (reply workerMode req).slot.toList []
  rw [List.append_nil, ← slots_concat, responds] at all
  constructor
  · exact same ▸ kept.asked
  · exact all.symm
  · exact fun _ => greeted
  · exact fun _ => kept.joined greeted
  · exact fun _ => kept.joined greeted
  · exact fun _ => same ▸ kept.idle idle
  · intro id busy
    cases idle.symm.trans busy

omit [SerdeJson] in
/-- A tool call that the shim sends on. -/
theorem Kept.forwarded (kept : Kept workerMode s) (loop : ready s.link = true) {req id : Json}
    {name : String} {arguments : Json}
    (forwards : reply workerMode req = .forward id name arguments) :
    Kept workerMode (Shim.settle { s with
      link := s.link.step host (.call name arguments)
      calling := some id
      heard := s.heard ++ [req] }) := by
  obtain ⟨silent, greeted, connected, idle⟩ := kept.at_loop loop
  have even := (kept.idle idle).1
  have one : slots workerMode (s.heard ++ [req]) = slots workerMode s.heard ++ [.inr id] := by
    rw [slots_concat, forwards]
    rfl
  let next : Shim := { s with
    link := s.link.step host (.call name arguments)
    calling := some id
    heard := s.heard ++ [req] }
  obtain ⟨asked, outcome⟩ := call_step host silent connected name arguments
  have called : next.link.asked.tail = calls workerMode next.heard := by
    rw [calls_concat, forwards, ← kept.asked]
    exact (congrArg List.tail asked).trans (tail_concat connected _)
  have joined : next.link.asked ≠ [] := by
    rw [show next.link.asked = _ from asked]
    simp
  rcases outcome with ⟨waits, returned⟩ | ⟨failed, result, returned⟩
  · have written := kept.more idle [.inr id] []
    rw [List.append_nil, ← one] at written
    rw [show next.settle = next from settle_waiting waits]
    constructor
    · exact called
    · exact (returned ▸ written.trans (List.append_nil _)).symm
    · exact fun _ => returned ▸ greeted
    · exact fun _ => joined
    · exact fun _ => joined
    · intro busy
      cases busy
    · rintro _ ⟨⟩
      refine ⟨waits, slots workerMode s.heard, one, ?_⟩
      rw [awaited_slots, ← even]
      exact congrArg (fun results => (List.tail results).length) returned.symm
  · have results : next.link.returned.tail = s.link.returned.tail ++ [result] :=
      (congrArg List.tail returned).trans (tail_concat greeted _)
    have written := kept.more idle [.inr id] [result]
    rw [← one] at written
    have settled : next.settle = { next with
        calling := none, written := s.written ++ [finish id result] } :=
      settle_done rfl failed returned
    rw [show next.settle = _ from settled]
    constructor
    · exact called
    · exact (results ▸ written).symm
    · intro _ nothing
      rw [show next.link.returned = _ from returned] at nothing
      simp at nothing
    · exact fun _ => joined
    · exact fun _ => joined
    · intro _
      refine ⟨?_, .inl failed⟩
      rw [← called, results, show next.link.asked = _ from asked, tail_concat connected,
        List.length_append, List.length_append, even, ← kept.asked]
      rfl
    · intro _ busy
      cases busy

theorem Kept.line (kept : Kept workerMode s) (text : List Char) :
    Kept workerMode (s.step host workerMode (.line text)) := by
  rw [Shim.step]
  split
  · next loop =>
    obtain ⟨_, greeted, _, idle⟩ := kept.at_loop loop
    split
    · exact kept
    · next req parsed =>
      dsimp only
      split
      · next nothing =>
        exact kept.replied greeted idle (by rw [nothing]; rfl)
          (by rw [nothing]; exact List.append_nil _)
      · next response answered =>
        exact kept.replied greeted idle (by rw [answered]; rfl) (by rw [answered]; rfl)
      · next id name arguments forwards => exact kept.forwarded loop forwards
  · exact kept

theorem kept_run (host : Host) (workerMode : Bool) (peer : PeerCred) (steps : List ShimStep) :
    Kept workerMode (after (Shim.step host workerMode) (.start peer) steps) := by
  apply always
  · constructor
    · rfl
    · rfl
    · exact fun some => absurd rfl some
    · exact fun some => absurd rfl some
    · intro waits
      cases waits
    · exact fun _ => ⟨rfl, .inl rfl⟩
    · intro id calling
      cases calling
  · intro s step kept
    cases step with
    | connect proof => exact kept.connect proof
    | line text => exact kept.line text
    | link event quiet => exact kept.link quiet

end Steps

section Results
variable [Platform] [WireReader] [SerdeJson] {host : Host} {workerMode : Bool}

/-- The number that a request is to be answered under. -/
def answerId (req : Json) : Option Json :=
  if (req.getStr "method").getD "" ∈ ["initialize", "tools/list"] then
    some ((req.get "id").getD .null)
  else req.get "id"

def slotId : Json ⊕ Json → Option Json
  | .inl response => response.get "id"
  | .inr id => some id

omit [Platform] [WireReader] [SerdeJson] in
theorem finish_id (id : Json) (result : Except WireError Json) :
    (finish id result).get "id" = some id := by
  cases result <;> rfl

omit [Platform] [WireReader] [SerdeJson] in
theorem reply_id (workerMode : Bool) (req : Json) :
    (reply workerMode req).slot.map slotId = (answerId req).map some := by
  unfold reply answerId
  dsimp only
  split
  · next first => rw [first]; rfl
  split
  · next second => rw [second]; rfl
  next first second =>
    rw [if_neg (by simp [first, second])]
    cases req.get "id" with
    | none => rfl
    | some id =>
      dsimp only
      split
      · unfold handleToolsCall
        dsimp only
        split
        · rfl
        · split <;> rfl
      · rfl

omit [Platform] [WireReader] [SerdeJson] in
theorem slots_ids (workerMode : Bool) (heard : List Json) :
    (slots workerMode heard).map slotId = (heard.filterMap answerId).map some := by
  induction heard using List.reverseRecOn with
  | nil => rfl
  | append_singleton past req ih =>
    have one := reply_id workerMode req
    rw [slots_concat, List.map_append, ih, List.filterMap_append, List.map_append]
    congr 1
    cases slot : (reply workerMode req).slot with
    | none =>
      rw [slot] at one
      have none : answerId req = Option.none := by simpa using one.symm
      simp [none]
    | some value =>
      rw [slot] at one
      obtain ⟨id, same, number⟩ := Option.map_eq_some_iff.mp one.symm
      simp [← number, same]

omit [Platform] [WireReader] [SerdeJson] in
/-- The responses carry the numbers of their slots, up to the first that has no result. -/
theorem fill_ids (slots : List (Json ⊕ Json)) (results : List (Except WireError Json)) :
    (fill slots results).map (·.get "id") <+: slots.map slotId ∧
      (awaited slots ≤ results.length → (fill slots results).map (·.get "id") = slots.map slotId) := by
  induction slots generalizing results with
  | nil => exact ⟨List.prefix_refl _, fun _ => rfl⟩
  | cons slot rest ih =>
    cases slot with
    | inl response =>
      obtain ⟨start, all⟩ := ih results
      rw [fill, List.map_cons, List.map_cons]
      exact ⟨(List.prefix_cons_inj _).mpr start, fun enough => congrArg _ (all enough)⟩
    | inr id =>
      have one : awaited (.inr id :: rest) = awaited rest + 1 := List.countP_cons_of_pos rfl
      cases results with
      | nil => exact ⟨List.nil_prefix, fun enough => by rw [one] at enough; cases enough⟩
      | cons result results =>
        obtain ⟨start, all⟩ := ih results
        rw [fill, List.map_cons, List.map_cons, finish_id]
        refine ⟨(List.prefix_cons_inj _).mpr start, fun enough => congrArg _ (all ?_)⟩
        rw [one, List.length_cons] at enough
        omega

/-- Each answerable request is responded to once, in order and under its own number; but for the
call that is under way nothing is left out. -/
theorem responses_in_order (peer : PeerCred) (steps : List ShimStep) :
    let s := after (Shim.step host workerMode) (.start peer) steps
    s.written.map (·.get "id") <+: (s.heard.filterMap answerId).map some ∧
      (s.calling = none →
        s.written.map (·.get "id") = (s.heard.filterMap answerId).map some) := by
  have kept := kept_run host workerMode peer steps
  intro s
  obtain ⟨start, all⟩ := fill_ids (slots workerMode s.heard) s.link.returned.tail
  rw [← slots_ids workerMode, kept.written]
  refine ⟨start, fun idle => all ?_⟩
  rw [awaited_slots, (kept.idle idle).1]

/-- The connection of the shim is a run of the link. -/
theorem link_run (host : Host) (workerMode : Bool) (peer : PeerCred) (steps : List ShimStep) : ∃ events,
    (after (Shim.step host workerMode) (.start peer) steps).link =
      after (Link.step host) (.start peer) events := by
  induction steps using List.reverseRecOn with
  | nil => exact ⟨[], rfl⟩
  | append_singleton past step ih =>
    obtain ⟨events, same⟩ := ih
    have one : ∀ event, (after (Shim.step host workerMode) (.start peer) past).link.step host event =
        after (Link.step host) (.start peer) (events ++ [event]) := by
      intro event
      rw [after_concat, same]
    rw [after_concat]
    cases step with
    | connect proof => exact ⟨_, one (.connect proof)⟩
    | link event quiet => exact ⟨_, (settle_link _).trans (one event)⟩
    | line text =>
      rw [Shim.step]
      split
      · split
        · exact ⟨events, same⟩
        · dsimp only
          split
          · exact ⟨events, same⟩
          · exact ⟨events, same⟩
          · next id name arguments forwarded =>
            exact ⟨_, (settle_link _).trans (one (.call name arguments))⟩
      · exact ⟨events, same⟩

/-- The tool calls go to the daemon as they were read, and their responses are made of the
daemon's answers to these very calls, or of failures when the connection is lost. -/
theorem tool_calls_answered (reads : ReadsWire) (peer : PeerCred) (steps : List ShimStep)
    (fits : Fits (after (Shim.step host workerMode) (.start peer) steps).link.asked
      (after (Shim.step host workerMode) (.start peer) steps).link.answered) :
    let s := after (Shim.step host workerMode) (.start peer) steps
    s.link.asked.tail = calls workerMode s.heard ∧
      s.written = fill (slots workerMode s.heard) s.link.returned.tail ∧
      Truthful (s.link.session.phase = .closed) s.link.asked s.link.answered s.link.returned := by
  intro s
  have kept : Kept workerMode s := kept_run host workerMode peer steps
  obtain ⟨events, same⟩ := link_run host workerMode peer steps
  refine ⟨kept.asked, kept.written, ?_⟩
  rw [same] at fits
  rw [show s.link = _ from same]
  exact (run_stage host reads peer events fits).2

omit [SerdeJson] in
/-- The first request shows who the client is. -/
theorem asked_first (host : Host) (peer : PeerCred) (events : List LinkStep) :
    ∀ req ∈ (after (Link.step host) (.start peer) events).asked.head?,
      ∃ proof, req = connection proof := by
  induction events using List.reverseRecOn with
  | nil => exact fun req first => by cases first
  | append_singleton past event ih =>
    rw [after_concat]
    generalize after (Link.step host) (.start peer) past = l at ih ⊢
    have asks : ∀ req, (l.ask req).asked = l.asked ∨ (l.ask req).asked = l.asked ++ [req] := by
      intro req
      rw [Link.ask]
      split
      · exact .inl rfl
      · split <;> exact .inr rfl
    have same : ∀ quiet : event.quiet = true, (l.step host event).asked = l.asked :=
      fun quiet => (quiet_step host quiet l).1
    cases event with
    | connect proof =>
      rw [Link.step]
      split
      · next first =>
        rw [List.isEmpty_iff] at first
        rcases asks (connection proof) with same | more
        · rw [same]
          exact ih
        · rw [more, first]
          rintro req ⟨⟩
          exact ⟨proof, rfl⟩
      · exact ih
    | call method params =>
      rw [Link.step]
      split
      · exact ih
      · next some =>
        rcases asks ⟨2, method, params⟩ with same | more
        · rw [same]
          exact ih
        · rw [more]
          cases asked : l.asked with
          | nil => simp [asked] at some
          | cons req rest =>
            rw [asked] at ih
            exact ih
    | read => exact (same rfl) ▸ ih
    | hear => exact (same rfl) ▸ ih
    | frame => exact (same rfl) ▸ ih
    | answer => exact (same rfl) ▸ ih
    | lose => exact (same rfl) ▸ ih

omit [Platform] [WireReader] [SerdeJson] in
/-- A tool call that is sent on is none of a worker's hidden ones, and names no sender. -/
theorem forwarded_open {req : Json} {call : WireRequest}
    (forwarded : (reply workerMode req).call = some call) :
    (workerMode = true → call.method ∉ workerHidden) ∧ call.params.get "from_cell" = none := by
  unfold reply at forwarded
  dsimp only at forwarded
  split at forwarded
  · cases forwarded
  split at forwarded
  · cases forwarded
  split at forwarded
  · cases forwarded
  · split at forwarded
    · unfold handleToolsCall at forwarded
      dsimp only at forwarded
      split at forwarded
      · cases forwarded
      · next open' =>
        split at forwarded
        · cases forwarded
        · next unnamed =>
          cases forwarded
          exact ⟨fun worker hidden => open' ⟨worker, hidden⟩, by simpa using unnamed⟩
    · cases forwarded

/-- The shim of a worker never asks for the spawn surface, and no shim ever names a sender. -/
theorem hidden_never_asked (peer : PeerCred) (steps : List ShimStep) :
    ∀ req ∈ (after (Shim.step host workerMode) (.start peer) steps).link.asked,
      (workerMode = true → req.method ∉ workerHidden) ∧ req.params.get "from_cell" = none := by
  intro req member
  have kept : Kept workerMode (after (Shim.step host workerMode) (.start peer) steps) :=
    kept_run host workerMode peer steps
  obtain ⟨events, same⟩ := link_run host workerMode peer steps
  have first := asked_first host peer events
  rw [← same] at first
  generalize after (Shim.step host workerMode) (.start peer) steps = s at member kept first
  cases asked : s.link.asked with
  | nil =>
    rw [asked] at member
    cases member
  | cons hello rest =>
    rw [asked] at member first
    rcases List.mem_cons.mp member with rfl | later
    · obtain ⟨proof, rfl⟩ := first req rfl
      have apart : "handshake" ∉ workerHidden := by decide
      exact ⟨fun _ => apart, rfl⟩
    · have called := kept.asked
      rw [asked, List.tail_cons] at called
      rw [called] at later
      obtain ⟨line, _, forwarded⟩ := List.mem_filterMap.mp later
      exact forwarded_open forwarded

end Results

section Samples

/-- The client of mesh asks its shim for the inbox. -/
def inboxCalled : Json := .obj [("id", .num 7), ("jsonrpc", .str "2.0"),
  ("method", .str "tools/call"), ("params", .obj [("arguments", .obj [("limit", .num 20)]),
    ("name", .str "cell_inbox")])]

/-- The line of the request is read as it was written. -/
theorem inbox_parsed : let _ := SerdeJson.ofWritten
    ∃ ordered, SerdeJson.fromStr (trimEnd inboxCalled.render) = some ⟨inboxCalled, ordered⟩ := by
  let _ := SerdeJson.ofWritten
  have ordered : inboxCalled.Ordered := Json.ordered_of_inOrder (by decide)
  have solid : trimEnd inboxCalled.render = inboxCalled.render := by
    rw [inboxCalled, Json.render, trimEnd_concat (by decide)]
  have readable : inboxCalled.Readable readDepth := by
    have arguments : ∀ depth, Json.Readable (depth + 1) (.obj [("limit", .num 20)]) :=
      fun _ => Json.readable_flat (by simp [Json.scalar])
    have params : ∀ depth, Json.Readable (depth + 2) (.obj [
        ("arguments", .obj [("limit", .num 20)]), ("name", .str "cell_inbox")]) := by
      intro depth
      apply Json.Readable.obj
      simpa using ⟨arguments depth, .scalar rfl⟩
    apply Json.Readable.obj
    simpa using ⟨.scalar rfl, .scalar rfl, .scalar rfl, params 124⟩
  refine ⟨ordered, ?_⟩
  rw [solid]
  exact readsWritten_ofWritten.whole ⟨inboxCalled, ordered⟩ readable

theorem inbox_forwarded : reply true inboxCalled =
    .forward (.num 7) "cell_inbox" (.obj [("limit", .num 20)]) := by
  rfl

/-- The shim connects and sends the call of the tool on. -/
def meshServes [Platform] : List ShimStep := [.connect ⟨"mesh", "5f3a", specVersion⟩,
  .link (.hear 4096) rfl,
  .link (.frame (.start (DiskIssuer.after meshIssued)) 1783242060) rfl,
  .link (.read 4096) rfl, .line inboxCalled.render, .link (.hear 4096) rfl,
  .link (.frame (.start (DiskIssuer.after meshIssued)) 1783242061) rfl,
  .link (.answer (.start (DiskIssuer.after meshIssued))
    (.ok (.obj [("has_more", .bool false), ("messages", .arr [])])) true) rfl,
  .link (.read 4096) rfl]

/-- The shim has heard one call, and its connection went as mesh asks. -/
theorem mesh_serves : let _ := Platform.sample; let _ := WireReader.ofWritten
    let _ := SerdeJson.ofWritten
    let s := after (Shim.step sampleHost true) (.start ⟨1000, 1000, none⟩) meshServes
    s.heard = [inboxCalled] ∧ s.link = meshAsked := by
  let _ := Platform.sample
  let _ := WireReader.ofWritten
  let _ := SerdeJson.ofWritten
  let idle : Link := after (Link.step sampleHost) (.start ⟨1000, 1000, none⟩) (meshAsks.take 4)
  have loop : ready idle = true := by
    rw [show idle = _ from mesh_welcomed]
    rfl
  have first : after (Shim.step sampleHost true) (.start ⟨1000, 1000, none⟩) (meshServes.take 4) =
      ⟨idle, none, [], []⟩ := rfl
  have heard : Shim.step sampleHost true ⟨idle, none, [], []⟩ (.line inboxCalled.render) =
      Shim.settle ⟨idle.step sampleHost (.call "cell_inbox" (.obj [("limit", .num 20)])),
        some (.num 7), [inboxCalled], []⟩ := by
    obtain ⟨ordered, parsed⟩ := inbox_parsed
    rw [Shim.step, if_pos loop, parsed]
    dsimp only
    rw [inbox_forwarded]
    rfl
  have second : after (Shim.step sampleHost true) (.start ⟨1000, 1000, none⟩) meshServes =
      after (Shim.step sampleHost true) (after (Shim.step sampleHost true)
        (.start ⟨1000, 1000, none⟩) (meshServes.take 4)) (meshServes.drop 4) := by
    rw [← after_inputs_append, List.take_append_drop]
  let called : Shim := Shim.step sampleHost true ⟨idle, none, [], []⟩ (.line inboxCalled.render)
  have asked : called.link = idle.step sampleHost (.call "cell_inbox" (.obj [("limit", .num 20)])) := by
    rw [show called = _ from heard, settle_link]
  let events : List {event : LinkStep // event.quiet = true} := [⟨.hear 4096, rfl⟩,
    ⟨.frame (.start (DiskIssuer.after meshIssued)) 1783242061, rfl⟩,
    ⟨.answer (.start (DiskIssuer.after meshIssued))
      (.ok (.obj [("has_more", .bool false), ("messages", .arr [])])) true, rfl⟩,
    ⟨.read 4096, rfl⟩]
  obtain ⟨link, same⟩ := link_goes_on sampleHost true events called
  have rest : meshServes.drop 4 =
      .line inboxCalled.render :: events.map fun event => .link event.1 event.2 := rfl
  have whole : meshAsks = meshAsks.take 4 ++
      .call "cell_inbox" (.obj [("limit", .num 20)]) :: events.map Subtype.val := rfl
  have told : after (Link.step sampleHost) (.start ⟨1000, 1000, none⟩) (meshAsks.take 4 ++
      .call "cell_inbox" (.obj [("limit", .num 20)]) :: events.map Subtype.val) = meshAsked :=
    whole ▸ mesh_asked
  rw [after_inputs_append, after_cons] at told
  rw [asked] at link
  rw [show called.heard = _ from (congrArg Shim.heard heard).trans (settle_heard _)] at same
  intro _ _ _ s
  rw [show s = _ from second, first, rest, after_cons]
  exact ⟨same, link.trans told⟩

theorem mesh_served : let _ := Platform.sample; let _ := WireReader.ofWritten
    let _ := SerdeJson.ofWritten
    let s := after (Shim.step sampleHost true) (.start ⟨1000, 1000, none⟩) meshServes
    s.heard = [inboxCalled] ∧ s.link.asked.tail = [inboxAsked] ∧
      s.written = [finish (.num 7) (.ok (.obj [("has_more", .bool false), ("messages", .arr [])]))] ∧
      Truthful (s.link.session.phase = .closed) s.link.asked s.link.answered s.link.returned := by
  let _ := Platform.sample
  let _ := WireReader.ofWritten
  let _ := SerdeJson.ofWritten
  intro _ _ _ s
  obtain ⟨heard, link⟩ := mesh_serves
  have fits : Fits s.link.asked s.link.answered := by
    rw [show s.link = meshAsked from link]
    exact mesh_fits
  obtain ⟨asked, written, truthful⟩ :=
    tool_calls_answered readsWire_ofWritten ⟨1000, 1000, none⟩ meshServes fits
  refine ⟨heard, ?_, ?_, truthful⟩
  · rw [show s.link = meshAsked from link]
    rfl
  · rw [show s.written = _ from written, show (after (Shim.step sampleHost true)
      (.start ⟨1000, 1000, none⟩) meshServes).heard = _ from heard, show (after (Shim.step sampleHost
      true) (.start ⟨1000, 1000, none⟩) meshServes).link = _ from link]
    rfl

theorem mesh_unhidden : let _ := Platform.sample; let _ := WireReader.ofWritten
    let _ := SerdeJson.ofWritten
    inboxAsked ∈ (after (Shim.step sampleHost true) (.start ⟨1000, 1000, none⟩)
        meshServes).link.asked ∧
      inboxAsked.method ∉ workerHidden ∧ inboxAsked.params.get "from_cell" = none := by
  let _ := Platform.sample
  let _ := WireReader.ofWritten
  let _ := SerdeJson.ofWritten
  have link : (after (Shim.step sampleHost true) (.start ⟨1000, 1000, none⟩) meshServes).link =
      meshAsked := mesh_serves.2
  have member : inboxAsked ∈ (after (Shim.step sampleHost true) (.start ⟨1000, 1000, none⟩)
      meshServes).link.asked := by
    rw [link]
    exact List.mem_cons_of_mem _ (List.mem_singleton_self _)
  obtain ⟨unhidden, unnamed⟩ := hidden_never_asked ⟨1000, 1000, none⟩ _ inboxAsked member
  exact ⟨member, unhidden rfl, unnamed⟩

end Samples
end Crewd.Client
