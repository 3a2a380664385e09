import Crewd.Engines.Child

/-! The pi adapter. The child streams what it does; a turn ends at the first end of an agent
run that will not be retried, or when the prompt is rejected, and every request bears an
identifier of its own. -/
namespace Crewd.Engines
open Fabric (EngineEvent)
open Machines

/-- The requests are counted without bound, where the source has a `u64`. -/
structure PiAdapter where
  child : LineChild Unit
  reqId : Nat

section Requests

/-- The requests of an adapter are told apart by a counter. -/
def reqName (n : Nat) : String := "req_" ++ toString n

def promptRequest (id message : String) : Json := .obj [
  ("id", .str id), ("message", .str message), ("type", .str "prompt")]

def abortRequest (id : String) : Json := .obj [("id", .str id), ("type", .str "abort")]

end Requests

section Events

/-- The `text` blocks of a message, or its text. -/
def concatTextContent (msg : Json) : String :=
  match msg.get "content" with
  | some (.arr blocks) => String.join (blocks.map fun block =>
      if block.getStr "type" = some "text" then (block.getStr "text").getD "" else "")
  | some (.str s) => s
  | _ => ""

/-- The last message of the assistant. -/
def lastAssistant (v : Json) : Option Json :=
  ((v.get "messages").bind Json.asArray).bind fun messages =>
    messages.reverse.find? fun m => m.getStr "role" = some "assistant"

def mapEvent (v : Json) : Option EngineEvent :=
  match v.getStr "type" with
  | none => none
  | some "response" =>
    if v.getStr "command" ≠ some "prompt" then none
    else if ((v.get "success").bind Json.asBool).getD false then
      some (.accepted ((v.getStr "id").getD ""))
    else some (.failed ((v.getStr "error").getD "prompt rejected"))
  | some "message_update" =>
    match v.get "assistantMessageEvent" with
    | none => none
    | some ame =>
      if ame.getStr "type" = some "text_delta" then some (.note ((ame.getStr "delta").getD ""))
      else none
  | some "tool_execution_start" =>
    let name := (v.getStr "toolName").getD "tool"
    some (.note s!"tool: {name}")
  | some "agent_end" =>
    if ((v.get "willRetry").bind Json.asBool).getD false then none
    else
      match lastAssistant v with
      | none => some (.final "")
      | some msg =>
        match msg.getStr "stopReason" with
        | some "aborted" => some (.failed "aborted")
        | some "error" => some (.failed ((msg.getStr "errorMessage").getD "error"))
        | _ => some (.final (concatTextContent msg))
  | some _ => none

/-- A prompt that was rejected, or the end of a run that is not retried. -/
def endsTurn (v : Json) : Bool :=
  (v.getStr "type" = some "response" && v.getStr "command" = some "prompt" &&
    !((v.get "success").bind Json.asBool).getD false) ||
  (v.getStr "type" = some "agent_end" && !((v.get "willRetry").bind Json.asBool).getD false)

end Events

namespace PiAdapter

/-- The closure for the reader thread. -/
def parse : Parse Unit := fun _ v => (mapEvent v, ())

def command (cfg : EngineSpawnCfg) : Command where
  program := cfg.binOverride.getD "pi"
  args := if cfg.binOverride.isSome then cfg.shimArgs
    else ["--mode", "rpc"] ++ (cfg.model.map fun model => ["--model", model]).getD []
  cwd := cfg.cwd
  env := none

def new (cfg : EngineSpawnCfg) (start : Command → Except String Unit) :
    Except BusError PiAdapter :=
  match LineChild.spawn (command cfg) false () "pi" start (.ok []) with
  | .error e => .error e
  | .ok child => .ok ⟨child, 0⟩

def startTurn (a : PiAdapter) (payload : String) (sending : Sending) :
    Except BusError Unit × PiAdapter :=
  let (r, child) := a.child.send (promptRequest (reqName (a.reqId + 1)) payload) sending
  (r, ⟨child, a.reqId + 1⟩)

def pollEvents (a : PiAdapter) : List EngineEvent × PiAdapter :=
  let (events, child) := a.child.poll
  (events, { a with child := child })

def interrupt (a : PiAdapter) (sending : Sending) : Except BusError Unit × PiAdapter :=
  let (r, child) := a.child.send (abortRequest (reqName (a.reqId + 1))) sending
  (r, ⟨child, a.reqId + 1⟩)

def resumeSession (_ : String) : Except BusError Unit :=
  .error (.threadNotResumable "engine has no session resume")

def procState (a : PiAdapter) : EngineProcState := a.child.procState

variable [SerdeJson]

def shutdown (a : PiAdapter) (left : List (List Char)) : PiAdapter :=
  { a with child := a.child.shutdown parse left }

def step (a : PiAdapter) : AdapterStep → PiAdapter
  | .reads lines ends => { a with child := a.child.reads parse lines ends }
  | .startTurn payload sending => (a.startTurn payload sending).2
  | .pollEvents => a.pollEvents.2
  | .interrupt sending => (a.interrupt sending).2
  | .resumeSession _ => a
  | .shutdown left => a.shutdown left

/-- The values that the reader thread handles during a step. -/
def hearing (a : PiAdapter) : AdapterStep → List Json
  | .reads lines _ => a.child.values lines
  | .shutdown left => a.child.values left
  | _ => []

omit [SerdeJson] in
/-- The events that a step gives to the owner. -/
def polled (a : PiAdapter) : AdapterStep → List EngineEvent
  | .pollEvents => a.pollEvents.1
  | _ => []

end PiAdapter
open PiAdapter

section Turns

/-- Every end of a turn is told to the owner as one, and nothing else is. -/
theorem mapEvent_terminal (v : Json) :
    ((mapEvent v).map EngineEvent.terminal).getD false = endsTurn v := by
  unfold mapEvent endsTurn
  split
  · next untyped => simp [untyped]
  · next response =>
    by_cases prompt : v.getStr "command" = some "prompt"
    · cases success : ((v.get "success").bind Json.asBool).getD false <;>
        simp [response, prompt, EngineEvent.terminal]
    · simp [response, prompt]
  · next update =>
    cases v.get "assistantMessageEvent" with
    | none => simp [update]
    | some ame =>
      dsimp only
      split <;> simp [update, EngineEvent.terminal]
  · next tool => simp [tool, EngineEvent.terminal]
  · next ended =>
    cases retried : ((v.get "willRetry").bind Json.asBool).getD false with
    | true => simp [ended]
    | false =>
      rw [if_neg Bool.false_ne_true]
      cases lastAssistant v with
      | none => simp [ended, EngineEvent.terminal]
      | some msg =>
        dsimp only
        split <;> simp [ended, EngineEvent.terminal]
  · next kind response update tool ended typed => simp_all

variable [SerdeJson]

omit [SerdeJson] in
theorem along_parse (shared : Unit) (vs : List Json) :
    along (LineChild.cell parse) (LineChild.emits parse) shared vs = vs.filterMap mapEvent := by
  induction vs with
  | nil => rfl
  | cons v rest ih =>
    rw [along_cons, ih, LineChild.emits, parse, List.filterMap_cons]
    cases mapEvent v <;> rfl

/-- What waits is what was heard and has not been polled. -/
theorem PiAdapter.balanced : Balanced PiAdapter.step (fun _ => True) (fun a => a.child.rx)
    (fun a step => (a.hearing step).filterMap mapEvent) polled := by
  intro a step _
  refine ⟨trivial, ?_⟩
  cases step with
  | reads lines ends =>
    rw [PiAdapter.step, LineChild.reads_eq, along_parse]
    rfl
  | startTurn payload sending =>
    have kept := congrArg LineChild.rx
      (a.child.send_eq (promptRequest (reqName (a.reqId + 1)) payload) sending)
    exact (List.append_nil _).trans kept.symm
  | pollEvents => rfl
  | interrupt sending =>
    have kept := congrArg LineChild.rx
      (a.child.send_eq (abortRequest (reqName (a.reqId + 1))) sending)
    exact (List.append_nil _).trans kept.symm
  | resumeSession sid => exact List.append_nil _
  | shutdown left =>
    rw [PiAdapter.step, PiAdapter.shutdown, LineChild.shutdown, LineChild.reads_eq, along_parse]
    rfl

omit [SerdeJson] in
theorem new_eq {cfg : EngineSpawnCfg} {start : Command → Except String Unit} {a : PiAdapter}
    (new : PiAdapter.new cfg start = .ok a) : a = ⟨⟨true, true, [], (), true, []⟩, 0⟩ := by
  unfold PiAdapter.new LineChild.spawn at new
  cases started : start (PiAdapter.command cfg) with
  | error e =>
    rw [started] at new
    cases new
  | ok _ =>
    rw [started] at new
    cases new
    rfl

/-- The polls give what the child has told, once and in order, but for what still waits; and
as many turns end for the owner as the child has said. -/
theorem pi_turn_ends {cfg : EngineSpawnCfg} {start : Command → Except String Unit} {a : PiAdapter}
    (new : PiAdapter.new cfg start = .ok a) (steps : List AdapterStep) :
    along PiAdapter.step polled a steps ++ (after PiAdapter.step a steps).child.rx =
        (along PiAdapter.step hearing a steps).filterMap mapEvent ∧
      (along PiAdapter.step polled a steps ++
          (after PiAdapter.step a steps).child.rx).countP EngineEvent.terminal =
        (along PiAdapter.step hearing a steps).countP endsTurn := by
  have conserved := PiAdapter.balanced.conserved trivial steps (s := a)
  rw [new_eq new, List.nil_append, ← new_eq new, along_filterMap] at conserved
  constructor
  · exact conserved.symm
  · rw [← conserved, List.countP_filterMap]
    exact List.countP_congr fun v _ => by rw [mapEvent_terminal]

end Turns

section Samples

def promptAck : Json := .obj [("command", .str "prompt"), ("id", .str "req_1"),
  ("success", .bool true), ("type", .str "response")]

def agentEnd : Json := .obj [
  ("messages", .arr [.obj [("content", .arr [.obj [("text", .str "done"), ("type", .str "text")]]),
    ("role", .str "assistant"), ("stopReason", .str "stop")]]),
  ("type", .str "agent_end"), ("willRetry", .bool false)]

@[reducible] def piReader : SerdeJson := .ofValues [promptAck, agentEnd]

def piAdapter : PiAdapter := ⟨⟨true, true, [], (), true, []⟩, 0⟩

def piTurn : List AdapterStep := [.startTurn "go" .sent,
  .reads [lineOf promptAck, ['n', 'o', '\n'], lineOf agentEnd] false, .pollEvents]

def piCfg : EngineSpawnCfg := ⟨"/work", none, none, 1800, none, false, none, none, []⟩

theorem pi_turn_reported : let _ := piReader
    along PiAdapter.step polled piAdapter piTurn = [.accepted "req_1", .final "done"] ∧
      (along PiAdapter.step hearing piAdapter piTurn).countP endsTurn = 1 := by
  let _ := piReader
  have new : PiAdapter.new piCfg (fun _ => .ok ()) = .ok piAdapter := rfl
  obtain ⟨same, ends⟩ := pi_turn_ends new piTurn
  have waits : (after PiAdapter.step piAdapter piTurn).child.rx = [] := by decide +kernel
  have heard : (along PiAdapter.step hearing piAdapter piTurn).filterMap mapEvent =
      [.accepted "req_1", .final "done"] := by decide +kernel
  rw [waits, List.append_nil] at same ends
  rw [heard] at same
  rw [same] at ends
  exact ⟨same, ends.symm⟩

end Samples

section Identifiers

theorem reqName_injective : Function.Injective reqName := by
  intro m n same
  have digits := congrArg String.toList ((String.append_right_inj "req_").mp same)
  apply toDigits_injective
  simpa [toString, Nat.repr] using digits

/-- The identifier that a request bears. -/
def requestName (sent : Json) : Option String := sent.getStr "id"

/-- The requests bear the names of rising numbers, none of them beyond the counter. -/
def Numbered (a : PiAdapter) : Prop :=
  ∃ numbers : List Nat, a.child.written.map requestName = numbers.map (some ∘ reqName) ∧
    numbers.Pairwise (· < ·) ∧ ∀ n ∈ numbers, n ≤ a.reqId

variable {a : PiAdapter}

/-- A request with the next number is written, or none is. -/
theorem Numbered.send (numbered : Numbered a) {v : Json}
    (named : requestName v = some (reqName (a.reqId + 1))) (sending : Sending) :
    Numbered ⟨(a.child.send v sending).2, a.reqId + 1⟩ := by
  obtain ⟨numbers, names, rising, within⟩ := numbered
  unfold Numbered
  rw [LineChild.send_eq]
  dsimp only
  split
  · refine ⟨numbers ++ [a.reqId + 1], by simp [names, named], ?_, ?_⟩
    · rw [List.pairwise_append]
      refine ⟨rising, List.pairwise_singleton _ _, ?_⟩
      intro n earlier m last
      rw [List.mem_singleton.mp last]
      exact Nat.lt_succ_of_le (within n earlier)
    · intro n member
      rcases List.mem_append.mp member with earlier | last
      · exact Nat.le_succ_of_le (within n earlier)
      · exact (List.mem_singleton.mp last).le
  · exact ⟨numbers, by simp [names], rising, fun n member => Nat.le_succ_of_le (within n member)⟩

variable [SerdeJson]

theorem Numbered.step (numbered : Numbered a) (step : AdapterStep) : Numbered (a.step step) := by
  cases step with
  | reads lines ends =>
    rw [PiAdapter.step, LineChild.reads_eq]
    exact numbered
  | startTurn payload sending => exact numbered.send rfl sending
  | pollEvents => exact numbered
  | interrupt sending => exact numbered.send rfl sending
  | resumeSession sid => exact numbered
  | shutdown left =>
    rw [PiAdapter.step, PiAdapter.shutdown, LineChild.shutdown, LineChild.reads_eq]
    exact numbered

/-- No two requests of an adapter bear the same identifier, whether they are prompts or
aborts, and also when a write fails in between. -/
theorem pi_requests_distinct {cfg : EngineSpawnCfg} {start : Command → Except String Unit}
    (new : PiAdapter.new cfg start = .ok a) (steps : List AdapterStep) :
    ((after PiAdapter.step a steps).child.written.map requestName).Nodup := by
  have fresh : Numbered a := by
    rw [new_eq new]
    exact ⟨[], rfl, List.Pairwise.nil, by simp⟩
  have kept : Numbered (after PiAdapter.step a steps) :=
    always fresh (fun t step numbered => numbered.step step) steps
  obtain ⟨numbers, names, rising, _⟩ := kept
  rw [names, List.nodup_map_iff ((Option.some_injective _).comp reqName_injective)]
  exact rising.imp Nat.ne_of_lt

omit [SerdeJson] in
theorem pi_requests_named : let _ := piReader
    ((after PiAdapter.step piAdapter [.startTurn "go" (.unwritten "pipe"), .interrupt .sent,
      .startTurn "on" .sent]).child.written.map requestName).Nodup := by
  let _ := piReader
  have new : PiAdapter.new piCfg (fun _ => .ok ()) = .ok piAdapter := rfl
  exact pi_requests_distinct new _

end Identifiers
end Crewd.Engines
