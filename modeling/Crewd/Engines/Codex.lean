import Crewd.Engines.Adapter
import Crewd.Lib.Machine

/-! The codex adapter, a JSON-RPC client over the pipes of its child. A reader thread sorts
the lines of the child into responses and notifications; a call writes one request and waits
for the response with its own number, and the events of turns are drained when polled. -/
namespace Crewd.Engines
open Fabric (EngineEvent)
open Machines

/-- The notifications that are not wanted. -/
def optOutMethods : List String := ["item/agentMessage/delta", "item/reasoning/summaryTextDelta",
  "item/reasoning/summaryPartAdded", "item/reasoning/textDelta"]

/-- The adapter, with the requests that have gone into the pipe to the child. The reader
thread runs as long as the adapter is alive. The numbers of the requests have no bound here;
in the source they are of type `u64`. -/
structure CodexAdapter where
  child : Bool
  stdin : Bool
  responses : List (Int × Json)
  notifications : List Json
  alive : Bool
  procState : EngineProcState
  nextId : Nat
  engineThreadId : Option String
  turnInFlight : Option String
  pending : List EngineEvent
  written : List Json

/-- What a call meets: the fate of its request, the lines that the reader thread handles
before it returns, whether the stream ends then, and how a timeout prints. -/
structure Exchange where
  sending : Sending
  lines : List (List Char)
  ends : Bool
  complaint : String

def safeMsg (s : String) : String := safePrefix s

section Answers

/-- The result of a response, unless it holds an error. -/
def responseResult (method : String) (msg : Json) : Except BusError Json :=
  match msg.get "error" with
  | some err =>
    let code := ((err.get "code").bind Json.asI64).getD 0
    let m := (err.getStr "message").getD ""
    .error (.engineDown s!"codex {method} error {code}: {safeMsg m}")
  | none => .ok ((msg.get "result").getD .null)

def verifyYolo (resp : Json) : Except BusError Unit :=
  let ap := resp.getStr "approvalPolicy"
  let st := (resp.get "sandbox").bind (·.getStr "type")
  if ap ≠ some "never" ∨ st ≠ some "dangerFullAccess" then
    .error (.policyDenied
      s!"codex YOLO mismatch: approvalPolicy={debugOption ap} sandbox.type={debugOption st}")
  else .ok ()

/-- An answer that says nothing of the policy passes. -/
def verifyYoloIfPresent (resp : Json) : Except BusError Unit :=
  if (resp.get "approvalPolicy").isSome ∨ (resp.get "sandbox").isSome then verifyYolo resp
  else .ok ()

def textBlock (block : Json) : String :=
  if block.getStr "type" = some "text" then (block.getStr "text").getD "" else ""

/-- The text of an `agentMessage`: its own field, or else its text blocks. -/
def agentText (item : Json) : String :=
  match item.getStr "text" with
  | some t => t
  | none => String.join ((((item.get "content").bind Json.asArray).getD []).map textBlock)

def extractFinalAnswer (turn : Json) : String :=
  match (turn.get "items").bind Json.asArray with
  | none => ""
  | some items =>
    match items.reverse.find? fun item => item.getStr "type" = some "agentMessage" with
    | none => ""
    | some item => agentText item

/-- The event that a notification ends a turn with, if it does. -/
def noticed (notif : Json) : Option EngineEvent :=
  let method := (notif.getStr "method").getD ""
  if method = "turn/completed" then
    some (.final (extractFinalAnswer (((notif.get "params").bind (·.get "turn")).getD .null)))
  else if method = "turn/failed" then
    some (.failed ((((notif.get "params").bind (·.get "error")).bind
      (·.getStr "message")).getD "turn failed"))
  else none

end Answers

section Requests

def request (id : Nat) (method : String) (params : Json) : Json := .obj [
  ("id", .num id), ("jsonrpc", .str "2.0"), ("method", .str method), ("params", params)]

def initializeParams : Json := .obj [
  ("capabilities", .obj [
    ("experimentalApi", .bool false),
    ("optOutNotificationMethods", .arr (optOutMethods.map .str)),
    ("requestAttestation", .bool false)]),
  ("clientInfo", .obj [
    ("name", .str "crewd"), ("title", .str "crewd cell fabric"), ("version", .str "0.1.6")])]

def threadStartParams (cfg : EngineSpawnCfg) : Json := .obj [
  ("approvalPolicy", .str "never"), ("cwd", .str cfg.cwd), ("model", textOrNull cfg.model),
  ("sandbox", .str "danger-full-access")]

def turnStartParams (threadId payload : String) : Json := .obj [
  ("approvalPolicy", .str "never"),
  ("input", .arr [.obj [("text", .str payload), ("text_elements", .arr []), ("type", .str "text")]]),
  ("sandboxPolicy", .obj [("type", .str "dangerFullAccess")]),
  ("threadId", .str threadId)]

def threadResumeParams (engineThreadId : String) : Json := .obj [
  ("approvalPolicy", .str "never"), ("sandbox", .str "danger-full-access"),
  ("threadId", .str engineThreadId)]

def turnInterruptParams (threadId turnId : String) : Json := .obj [
  ("threadId", .str threadId), ("turnId", .str turnId)]

end Requests

namespace CodexAdapter
variable [SerdeJson]

/-- The reader thread handles a line. -/
def hears (a : CodexAdapter) (line : List Char) : CodexAdapter :=
  match SerdeJson.fromStr line with
  | none => a
  | some v =>
    if (v.1.get "id").isSome ∧ (v.1.get "method").isNone then
      { a with responses := a.responses ++ [(((v.1.get "id").bind Json.asI64).getD 0, v.1)] }
    else if (v.1.get "method").isSome then { a with notifications := a.notifications ++ [v.1] }
    else a

/-- The reader thread handles lines until the stream ends. -/
def reads (a : CodexAdapter) (lines : List (List Char)) (ends : Bool) : CodexAdapter :=
  if a.alive then { lines.foldl hears a with alive := !ends } else a

omit [SerdeJson] in
def send (a : CodexAdapter) (v : Json) (sending : Sending) : Except BusError Unit × CodexAdapter :=
  if a.stdin then
    match sending with
    | .unwritten e => (.error (.engineDown s!"codex write: {safeMsg e}"), a)
    | .unflushed e =>
      (.error (.engineDown s!"codex flush: {safeMsg e}"), { a with written := a.written ++ [v] })
    | .sent => (.ok (), { a with written := a.written ++ [v] })
  else (.error (.internal "codex stdin gone"), a)

/-- The first response with the number; the ones before it are dropped. -/
def receive (id : Nat) : List (Int × Json) → Option (Json × List (Int × Json))
  | [] => none
  | (rid, msg) :: rest => if rid = id then some (msg, rest) else receive id rest

def call (a : CodexAdapter) (method : String) (params : Json) (io : Exchange) :
    Except BusError Json × CodexAdapter :=
  let id := a.nextId + 1
  match { a with nextId := id }.send (request id method params) io.sending with
  | (.error e, a) => (.error e, a)
  | (.ok (), a) =>
    let a := a.reads io.lines io.ends
    match receive id a.responses with
    | none =>
      (.error (.engineDown s!"codex rpc timeout ({method}): {io.complaint}"),
        { a with responses := [] })
    | some (msg, rest) => (responseResult method msg, { a with responses := rest })

def initializeEngine (a : CodexAdapter) (io : Exchange) : Except BusError Unit × CodexAdapter :=
  match a.call "initialize" initializeParams io with
  | (.error e, a) => (.error e, a)
  | (.ok _, a) => (.ok (), a)

def threadStart (a : CodexAdapter) (cfg : EngineSpawnCfg) (io : Exchange) :
    Except BusError Unit × CodexAdapter :=
  match a.call "thread/start" (threadStartParams cfg) io with
  | (.error e, a) => (.error e, a)
  | (.ok resp, a) =>
    match verifyYolo resp with
    | .error e => (.error e, a)
    | .ok () => (.ok (), { a with engineThreadId := (resp.get "thread").bind (·.getStr "id") })

def command (cfg : EngineSpawnCfg) : Command where
  program := cfg.binOverride.getD "codex"
  args := (if cfg.binOverride.isNone then ["app-server"] else []) ++ cfg.shimArgs
  cwd := cfg.cwd
  env := none

/-- The child has been spawned, and nothing has been written to it. -/
def spawned : CodexAdapter where
  child := true
  stdin := true
  responses := []
  notifications := []
  alive := true
  procState := .up
  nextId := 0
  engineThreadId := none
  turnInFlight := none
  pending := []
  written := []

def new (cfg : EngineSpawnCfg) (spawn : Command → Except String Unit) (first second : Exchange) :
    Except BusError CodexAdapter :=
  match spawn (command cfg) with
  | .error e => .error (.engineDown s!"codex spawn: {safeMsg e}")
  | .ok () =>
    match spawned.initializeEngine first with
    | (.error e, _) => .error e
    | (.ok (), a) =>
      match a.threadStart cfg second with
      | (.error e, _) => .error e
      | (.ok (), a) => .ok a

def turnId (resp : Json) : String := ((resp.get "turn").bind (·.getStr "id")).getD ""

def startTurn (a : CodexAdapter) (payload : String) (io : Exchange) :
    Except BusError Unit × CodexAdapter :=
  match a.engineThreadId with
  | none => (.error (.internal "codex: no engine thread"), a)
  | some threadId =>
    match a.call "turn/start" (turnStartParams threadId payload) io with
    | (.error e, a) => (.error e, a)
    | (.ok resp, a) =>
      match verifyYoloIfPresent resp with
      | .error e => (.error e, a)
      | .ok () => (.ok (), { a with
          pending := a.pending ++ [.accepted (turnId resp)]
          turnInFlight := some (turnId resp) })

omit [SerdeJson] in
def pollEvents (a : CodexAdapter) : List EngineEvent × CodexAdapter :=
  let ended := a.notifications.filterMap noticed
  (a.pending ++ ended, { a with
    pending := []
    notifications := []
    turnInFlight := if ended.isEmpty then a.turnInFlight else none })

omit [SerdeJson] in
/-- The outcome of the write is not looked at. -/
def interrupt (a : CodexAdapter) (sending : Sending) : CodexAdapter :=
  match a.engineThreadId, a.turnInFlight with
  | some threadId, some turnId =>
    let id := a.nextId + 1
    let sent := ({ a with nextId := id }.send
      (request id "turn/interrupt" (turnInterruptParams threadId turnId)) sending).2
    { sent with turnInFlight := none }
  | _, _ => a

def resumeThread (a : CodexAdapter) (engineThreadId : String) (io : Exchange) :
    Except BusError Unit × CodexAdapter :=
  match a.call "thread/resume" (threadResumeParams engineThreadId) io with
  | (.error e, a) => (.error e, a)
  | (.ok resp, a) =>
    match verifyYolo resp with
    | .error e => (.error e, a)
    | .ok () => (.ok (), { a with engineThreadId := some engineThreadId })

/-- The child is killed, and the reader thread joined after the lines that were left. -/
def shutdown (a : CodexAdapter) (left : List (List Char)) : CodexAdapter :=
  { a.reads left true with child := false, stdin := false, alive := false, procState := .down }

end CodexAdapter

/-- What happens to an adapter: the calls of its owner, and the reader thread between them. -/
inductive CodexStep where
  | reads (lines : List (List Char)) (ends : Bool)
  | startTurn (payload : String) (io : Exchange)
  | pollEvents
  | interrupt (sending : Sending)
  | resumeThread (engineThreadId : String) (io : Exchange)
  | shutdown (left : List (List Char))

def CodexAdapter.step [SerdeJson] (a : CodexAdapter) : CodexStep → CodexAdapter
  | .reads lines ends => a.reads lines ends
  | .startTurn payload io => (a.startTurn payload io).2
  | .pollEvents => a.pollEvents.2
  | .interrupt sending => a.interrupt sending
  | .resumeThread engineThreadId io => (a.resumeThread engineThreadId io).2
  | .shutdown left => a.shutdown left

/-- The lines that the reader thread is given during a step. -/
def CodexStep.lines : CodexStep → List (List Char)
  | .reads lines _ => lines
  | .startTurn _ io => io.lines
  | .pollEvents => []
  | .interrupt _ => []
  | .resumeThread _ io => io.lines
  | .shutdown left => left

section Reading
variable [SerdeJson] {a : CodexAdapter}

/-- The response that a line holds, under the number it carries; 0 stands for any other. -/
def responseIn (line : List Char) : Option (Int × Json) :=
  (SerdeJson.fromStr line).bind fun v =>
    if (v.1.get "id").isSome ∧ (v.1.get "method").isNone then
      some (((v.1.get "id").bind Json.asI64).getD 0, v.1)
    else none

def notificationIn (line : List Char) : Option Json :=
  (SerdeJson.fromStr line).bind fun v => if (v.1.get "method").isSome then some v.1 else none

namespace CodexAdapter

/-- The lines that reach a reader thread. -/
def heard (a : CodexAdapter) (lines : List (List Char)) : List (List Char) :=
  if a.alive then lines else []

theorem hears_eq (a : CodexAdapter) (line : List Char) : a.hears line = { a with
    responses := a.responses ++ (responseIn line).toList
    notifications := a.notifications ++ (notificationIn line).toList } := by
  unfold hears responseIn notificationIn
  cases SerdeJson.fromStr line with
  | none => simp
  | some v =>
    cases id : v.1.get "id" <;> cases method : v.1.get "method" <;> simp [id, method]

theorem foldl_hears (a : CodexAdapter) (lines : List (List Char)) : lines.foldl hears a = { a with
    responses := a.responses ++ lines.filterMap responseIn
    notifications := a.notifications ++ lines.filterMap notificationIn } := by
  induction lines generalizing a with
  | nil => simp
  | cons line rest ih =>
    rw [List.foldl_cons, ih, hears_eq]
    cases response : responseIn line <;> cases notification : notificationIn line <;>
      simp [response, notification]

theorem reads_eq (a : CodexAdapter) (lines : List (List Char)) (ends : Bool) :
    a.reads lines ends = { a with
      responses := a.responses ++ (a.heard lines).filterMap responseIn
      notifications := a.notifications ++ (a.heard lines).filterMap notificationIn
      alive := a.alive && !ends } := by
  obtain ⟨_, _, _, _, alive, _, _, _, _, _, _⟩ := a
  cases alive with
  | false => simp [reads, heard]
  | true => simp [reads, heard, foldl_hears]

end CodexAdapter
end Reading

section Calls
variable [SerdeJson] {a b : CodexAdapter} {method : String} {params : Json} {io : Exchange}

omit [SerdeJson] in
theorem CodexAdapter.receive_some {id : Nat} {queue left : List (Int × Json)} {msg : Json}
    (received : receive id queue = some (msg, left)) : ((id : Int), msg) ∈ queue ∧ left <:+ queue := by
  induction queue with
  | nil => cases received
  | cons head rest ih =>
    obtain ⟨rid, other⟩ := head
    unfold receive at received
    split at received
    · next same =>
      cases received
      subst same
      exact ⟨List.mem_cons_self, List.suffix_cons _ _⟩
    · obtain ⟨member, tail⟩ := ih received
      exact ⟨List.mem_cons_of_mem _ member, tail.trans (List.suffix_cons _ _)⟩

/-- The adapter after a request has been written and the lines of a call have been read. -/
def CodexAdapter.asked (a : CodexAdapter) (method : String) (params : Json) (io : Exchange)
    (left : List (Int × Json)) : CodexAdapter :=
  { a with
    nextId := a.nextId + 1
    written := a.written ++ [request (a.nextId + 1) method params]
    responses := left
    notifications := a.notifications ++ (a.heard io.lines).filterMap notificationIn
    alive := a.alive && !io.ends }

/-- A response with the number of the next request, waiting or among the lines. -/
def CodexAdapter.Answers (a : CodexAdapter) (io : Exchange) (msg : Json) : Prop :=
  (((a.nextId + 1 : Nat) : Int), msg) ∈ a.responses ++ (a.heard io.lines).filterMap responseIn

/-- A call whose request is sent goes on to listen. -/
def CodexAdapter.Listens (a : CodexAdapter) (io : Exchange) : Prop :=
  a.stdin = true ∧ io.sending = .sent

instance (a : CodexAdapter) (io : Exchange) : Decidable (a.Listens io) :=
  inferInstanceAs (Decidable (_ ∧ _))

/-- What a call comes to: its request is not written, or not known to be, or it waits. -/
inductive Called (a : CodexAdapter) (method : String) (params : Json) (io : Exchange) :
    Except BusError Json → CodexAdapter → Prop where
  | unwritten (e : BusError) (deaf : ¬ a.Listens io) :
      Called a method params io (.error e) { a with nextId := a.nextId + 1 }
  | unflushed (e : BusError) (deaf : ¬ a.Listens io) : Called a method params io (.error e) { a with
      nextId := a.nextId + 1
      written := a.written ++ [request (a.nextId + 1) method params] }
  | unanswered (e : BusError) (listens : a.Listens io) :
      Called a method params io (.error e) (a.asked method params io [])
  | answered (msg : Json) (left : List (Int × Json)) (listens : a.Listens io)
      (answers : a.Answers io msg)
      (later : left <:+ a.responses ++ (a.heard io.lines).filterMap responseIn) :
      Called a method params io (responseResult method msg) (a.asked method params io left)

omit [SerdeJson] in
theorem CodexAdapter.send_cases (a : CodexAdapter) (v : Json) (sending : Sending) :
    (¬ (a.stdin = true ∧ sending = .sent) ∧ ((∃ e, a.send v sending = (.error e, a)) ∨
      ∃ e, a.send v sending = (.error e, { a with written := a.written ++ [v] }))) ∨
    ((a.stdin = true ∧ sending = .sent) ∧
      a.send v sending = (.ok (), { a with written := a.written ++ [v] })) := by
  unfold send
  by_cases there : a.stdin = true
  · rw [if_pos there]
    cases sending with
    | unwritten e => exact .inl ⟨by simp, .inl ⟨_, rfl⟩⟩
    | unflushed e => exact .inl ⟨by simp, .inr ⟨_, rfl⟩⟩
    | sent => exact .inr ⟨⟨there, rfl⟩, rfl⟩
  · rw [if_neg there]
    exact .inl ⟨fun sent => there sent.1, .inl ⟨_, rfl⟩⟩

theorem CodexAdapter.call_called (a : CodexAdapter) (method : String) (params : Json) (io : Exchange) :
    Called a method params io (a.call method params io).1 (a.call method params io).2 := by
  unfold call
  rcases send_cases { a with nextId := a.nextId + 1 } (request (a.nextId + 1) method params)
    io.sending with ⟨deaf, ⟨e, sent⟩ | ⟨e, sent⟩⟩ | ⟨listens, sent⟩
  · simp only [sent]
    exact .unwritten e deaf
  · simp only [sent]
    exact .unflushed e deaf
  · simp only [sent, reads_eq]
    split
    · exact .unanswered _ listens
    · next msg left received =>
      obtain ⟨member, later⟩ := receive_some received
      exact .answered msg left listens member later

/-- What no call changes. -/
theorem Called.kept {r : Except BusError Json} (called : Called a method params io r b) :
    b.engineThreadId = a.engineThreadId ∧ b.turnInFlight = a.turnInFlight ∧
      b.pending = a.pending := by
  cases called with
  | unwritten | unflushed | unanswered | answered => exact ⟨rfl, rfl, rfl⟩

/-- What the start of a turn comes to. -/
inductive Started (a : CodexAdapter) (payload : String) (io : Exchange) :
    Except BusError Unit → CodexAdapter → Prop where
  | threadless (e : BusError) (off : a.engineThreadId = none) : Started a payload io (.error e) a
  | refused (e : BusError) {thread : String} {r : Except BusError Json} {b : CodexAdapter}
      (on : a.engineThreadId = some thread)
      (called : Called a "turn/start" (turnStartParams thread payload) io r b) :
      Started a payload io (.error e) b
  | accepted {thread : String} {resp : Json} {b : CodexAdapter} (on : a.engineThreadId = some thread)
      (called : Called a "turn/start" (turnStartParams thread payload) io (.ok resp) b)
      (echo : verifyYoloIfPresent resp = .ok ()) :
      Started a payload io (.ok ()) { b with
        pending := b.pending ++ [.accepted (CodexAdapter.turnId resp)]
        turnInFlight := some (CodexAdapter.turnId resp) }

theorem CodexAdapter.startTurn_started (a : CodexAdapter) (payload : String) (io : Exchange) :
    Started a payload io (a.startTurn payload io).1 (a.startTurn payload io).2 := by
  unfold startTurn
  split
  · next off => exact .threadless _ off
  · next thread on =>
    have called := a.call_called "turn/start" (turnStartParams thread payload) io
    generalize a.call "turn/start" (turnStartParams thread payload) io = outcome at called
    obtain ⟨r, b⟩ := outcome
    cases r with
    | error e => exact .refused e on called
    | ok resp =>
      dsimp only
      split
      · next e _ => exact .refused e on called
      · next echo => exact .accepted on called echo

/-- What a resume comes to. -/
inductive Resumed (a : CodexAdapter) (thread : String) (io : Exchange) :
    Except BusError Unit → CodexAdapter → Prop where
  | refused (e : BusError) {r : Except BusError Json} {b : CodexAdapter}
      (called : Called a "thread/resume" (threadResumeParams thread) io r b) :
      Resumed a thread io (.error e) b
  | reopened {resp : Json} {b : CodexAdapter}
      (called : Called a "thread/resume" (threadResumeParams thread) io (.ok resp) b)
      (verified : verifyYolo resp = .ok ()) :
      Resumed a thread io (.ok ()) { b with engineThreadId := some thread }

theorem CodexAdapter.resumeThread_resumed (a : CodexAdapter) (thread : String) (io : Exchange) :
    Resumed a thread io (a.resumeThread thread io).1 (a.resumeThread thread io).2 := by
  unfold resumeThread
  have called := a.call_called "thread/resume" (threadResumeParams thread) io
  generalize a.call "thread/resume" (threadResumeParams thread) io = outcome at called
  obtain ⟨r, b⟩ := outcome
  cases r with
  | error e => exact .refused e called
  | ok resp =>
    dsimp only
    split
    · next e _ => exact .refused e called
    · next verified => exact .reopened called verified

omit [SerdeJson] in
/-- An interrupt writes at most its own request, and then no turn is in flight. -/
theorem CodexAdapter.interrupt_cases (a : CodexAdapter) (sending : Sending) :
    a.interrupt sending = a ∨ ∃ thread turn written, a.engineThreadId = some thread ∧
      a.turnInFlight = some turn ∧ a.interrupt sending =
        { a with nextId := a.nextId + 1, written := a.written ++ written, turnInFlight := none } ∧
      (written = [] ∨ written =
        [request (a.nextId + 1) "turn/interrupt" (turnInterruptParams thread turn)]) := by
  unfold interrupt
  split
  · next thread turn on flying =>
    refine .inr ⟨thread, turn, ?_⟩
    rcases send_cases { a with nextId := a.nextId + 1 } (request (a.nextId + 1) "turn/interrupt"
      (turnInterruptParams thread turn)) sending with ⟨_, ⟨e, sent⟩ | ⟨e, sent⟩⟩ | ⟨_, sent⟩
    · exact ⟨[], on, flying, by simp [sent], .inl rfl⟩
    · exact ⟨_, on, flying, by simp [sent], .inr rfl⟩
    · exact ⟨_, on, flying, by simp [sent], .inr rfl⟩
  · exact .inl rfl

end Calls
section Samples

def helloAnswer : Json := .obj [("id", .num 1), ("result", .obj [])]

def threadAnswer : Json := .obj [("id", .num 2), ("result", .obj [
  ("approvalPolicy", .str "never"), ("sandbox", .obj [("type", .str "dangerFullAccess")]),
  ("thread", .obj [("id", .str "th-1")])])]

def turnAnswer : Json :=
  .obj [("id", .num 3), ("result", .obj [("turn", .obj [("id", .str "tn-1")])])]

def turnNotice : Json := .obj [("method", .str "turn/completed"), ("params", .obj [("turn", .obj [
  ("items", .arr [.obj [("text", .str "done"), ("type", .str "agentMessage")]])])])]

@[reducible] def codexReader : SerdeJson :=
  .ofValues [helloAnswer, threadAnswer, turnAnswer, turnNotice]

def answeredBy (answer : Json) : Exchange := ⟨.sent, [answer.render ++ ['\n']], false, ""⟩

def codexCfg : EngineSpawnCfg := ⟨"/work", none, none, 1800, none, false, none, none, []⟩

/-- An adapter that has come up on a thread. -/
def codexAdapter : CodexAdapter :=
  let _ := codexReader
  match CodexAdapter.new codexCfg (fun _ => .ok ()) (answeredBy helloAnswer)
    (answeredBy threadAnswer) with
  | .ok a => a
  | .error _ => .spawned

theorem codexAdapter_new : let _ := codexReader
    CodexAdapter.new codexCfg (fun _ => .ok ()) (answeredBy helloAnswer)
      (answeredBy threadAnswer) = .ok codexAdapter := rfl

end Samples
end Crewd.Engines
