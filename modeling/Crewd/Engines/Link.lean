import Crewd.Engines.Claude

/-! The claude adapter and its child over two pipes, the child being the engine of the chaos
suite. Each side writes lines when it can and reads what has come; the child may be killed
between any two characters that it writes. -/
namespace Crewd.Engines
open Fabric (EngineEvent)
open Machines

/-- The flags of the engine: after an acceptance it hangs, or it fails. -/
structure EngineFlags where
  hang : Bool
  fail : Bool

section Engine

def acceptedMessage (engineTurnId : String) : Json := .obj [
  ("engine_turn_id", .str engineTurnId), ("ev", .str "accepted")]

def errorMessage (error : String) : Json := .obj [("error", .str error), ("ev", .str "error")]

def finalMessage (finalAnswer sessionId : String) : Json := .obj [
  ("ev", .str "final"), ("final_answer", .str finalAnswer), ("session_id", .str sessionId)]

/-- What the engine says to a request, and whether it exits. -/
def answer (flags : EngineFlags) (turnCounter : Nat) (msg : Json) : List Json × Bool :=
  match (msg.getStr "op").getD "" with
  | "turn" =>
    let accepted := acceptedMessage s!"t-{turnCounter + 1}"
    if flags.hang then ([accepted], false)
    else if flags.fail then ([accepted, errorMessage "engine-failure"], false)
    else
      let prompt := (msg.getStr "prompt").getD ""
      ([accepted, finalMessage s!"fake: {prompt}"
        ((msg.getStr "resume_session").getD "fake-sess-1")], false)
  | "abort" => ([errorMessage "aborted"], false)
  | "exit" => ([], true)
  | _ => ([], false)

def countTurn (turnCounter : Nat) (msg : Json) : Nat :=
  if (msg.getStr "op").getD "" = "turn" then turnCounter + 1 else turnCounter

end Engine

/-- The two processes, with what is in the pipes between them: the requests that the engine
has not read, what it has said and not written yet, and what the adapter has not read. -/
structure Link where
  adapter : ClaudeAdapter
  running : Bool
  turnCounter : Nat
  input : List Char
  saying : List Char
  output : List Char

/-- The steps of the owner, of the engine, of the reader thread and of the system. -/
inductive LinkStep where
  | startTurn (payload : String)
  | pollEvents
  | interrupt
  | resumeSession (engineSessionId : String)
  | shutdown
  | engine
  | flush (chars : Nat)
  | read
  | kill (torn : Bool)

namespace Link

/-- The engine has come up, and its first line has been read. -/
def start : Link where
  adapter := ⟨⟨true, true, [], none, true, []⟩, none⟩
  running := true
  turnCounter := 0
  input := []
  saying := []
  output := []

/-- Nobody reads the pipe of a child that is gone. -/
def sending (l : Link) : Sending :=
  if l.running then .sent else .unwritten "Broken pipe (os error 32)"

/-- The engine is gone, with what it had not written. A character cut in two makes the last
line unreadable. -/
def kill (l : Link) (torn : Bool) : Link :=
  { l with
    running := false
    saying := []
    output := if torn then (l.output.reverse.dropWhile (· ≠ '\n')).reverse else l.output }

variable [SerdeJson]

/-- The engine handles the next request once everything it said is written. -/
def engine (flags : EngineFlags) (l : Link) : Link :=
  if l.running ∧ l.saying = [] then
    match Lines.takeLine l.input with
    | none => l
    | some (line, rest) =>
      match readValue line with
      | none => { l with input := rest }
      | some msg =>
        let (said, exits) := answer flags l.turnCounter msg
        { l with
          input := rest
          turnCounter := countTurn l.turnCounter msg
          saying := Lines.join (said.map Json.render)
          running := !exits }
  else l

/-- What the adapter does in a step, as it finds the pipes. -/
def does (l : Link) : LinkStep → Option AdapterStep
  | .startTurn payload => some (.startTurn payload l.sending)
  | .pollEvents => some .pollEvents
  | .interrupt => some (.interrupt l.sending)
  | .resumeSession engineSessionId => some (.resumeSession engineSessionId)
  | .shutdown => some (.shutdown (Lines.pieces l.output))
  | .read =>
    match Lines.takeLine l.output with
    | some (line, _) => some (.reads [line] false)
    | none => if l.running then none else some (.reads (Lines.pieces l.output) true)
  | .engine | .flush _ | .kill _ => none

/-- The adapter does its part, and its requests are in the pipe. -/
def act (l : Link) (step : AdapterStep) : Link :=
  { l with
    adapter := l.adapter.step step
    input := l.input ++ Lines.join (((l.adapter.asks step).map Op.toValue).map Json.render) }

def step (flags : EngineFlags) (l : Link) (s : LinkStep) : Link :=
  match l.does s, s with
  | some does, .shutdown => { (l.kill false).act does with output := [] }
  | some does, .read => { l.act does with output := ((Lines.takeLine l.output).map (·.2)).getD [] }
  | some does, _ => l.act does
  | none, .engine => l.engine flags
  | none, .flush chars =>
    if l.running then
      { l with output := l.output ++ l.saying.take chars, saying := l.saying.drop chars }
    else l
  | none, .kill torn => l.kill torn
  | none, _ => l

theorem step_flush (flags : EngineFlags) (l : Link) (chars : Nat) :
    l.step flags (.flush chars) = if l.running then
      { l with output := l.output ++ l.saying.take chars, saying := l.saying.drop chars }
    else l := rfl

theorem step_read (flags : EngineFlags) {l : Link} {line rest : List Char}
    (taken : Lines.takeLine l.output = some (line, rest)) :
    l.step flags .read = { l.act (.reads [line] false) with output := rest } := by
  simp [step, does, taken]

theorem step_ended (flags : EngineFlags) {l : Link} (taken : Lines.takeLine l.output = none)
    (gone : l.running = false) : l.step flags .read =
      { l.act (.reads (Lines.pieces l.output) true) with output := [] } := by
  simp [step, does, taken, gone]

theorem step_waits (flags : EngineFlags) {l : Link} (taken : Lines.takeLine l.output = none)
    (running : l.running = true) : l.step flags .read = l := by
  simp [step, does, taken, running]

end Link

section Calls

/-- What a request calls for. -/
def calledFor (flags : EngineFlags) (turnCounter : Nat) : Op → List EngineEvent
  | .turn prompt _ => .accepted s!"t-{turnCounter + 1}" ::
      if flags.hang then []
      else if flags.fail then [.failed "engine-failure"]
      else [.final s!"fake: {prompt}"]
  | .abort => [.failed "aborted"]

def countOp (turnCounter : Nat) : Op → Nat
  | .turn _ _ => turnCounter + 1
  | .abort => turnCounter

/-- The session that a request ends in. -/
def sessionOf (flags : EngineFlags) (session : Option String) : Op → Option String
  | .turn _ resumeSession =>
    if flags.hang ∨ flags.fail then session else some (resumeSession.getD "fake-sess-1")
  | .abort => session

/-- What the requests call for, one after the other. -/
def expected (flags : EngineFlags) (ops : List Op) : List EngineEvent :=
  along countOp (calledFor flags) 0 ops

/-- What the engine says to the requests. -/
def replies (flags : EngineFlags) (turnCounter : Nat) (ops : List Op) : List Json :=
  along countOp (fun n op => (answer flags n op.toValue).1) turnCounter ops

variable {flags : EngineFlags}

theorem replies_append (n : Nat) (first second : List Op) : replies flags n (first ++ second) =
    replies flags n first ++ replies flags (after countOp n first) second :=
  along_append first second

theorem told_op (op : Op) : Told op.toValue := by
  cases op with
  | abort => exact told_flat (by decide) (by simp [Json.scalar])
  | turn prompt resumeSession =>
    apply told_flat (by simp only [List.map_cons, List.map_nil]; decide)
    cases resumeSession <;> simp [Json.scalar, textOrNull]

theorem countTurn_op (n : Nat) (op : Op) : countTurn n op.toValue = countOp n op := by
  cases op <;> rfl

/-- The answer to a turn; the session that it resumes is the one it ends in. -/
theorem answer_turn (n : Nat) (prompt : String) (resumeSession : Option String) :
    answer flags n (Op.turn prompt resumeSession).toValue =
      (acceptedMessage s!"t-{n + 1}" :: (if flags.hang then []
        else if flags.fail then [errorMessage "engine-failure"]
        else [finalMessage s!"fake: {prompt}" (resumeSession.getD "fake-sess-1")]), false) := by
  obtain ⟨hang, fail⟩ := flags
  cases hang <;> cases fail <;> cases resumeSession <;> rfl

theorem answer_abort (n : Nat) :
    answer flags n Op.abort.toValue = ([errorMessage "aborted"], false) := rfl

theorem answer_stays (n : Nat) (op : Op) : (answer flags n op.toValue).2 = false := by
  cases op with
  | abort => rfl
  | turn prompt resumeSession => rw [answer_turn]

theorem told_answer (n : Nat) (op : Op) : ∀ v ∈ (answer flags n op.toValue).1, Told v := by
  have accepted : ∀ id, Told (acceptedMessage id) := fun id =>
    told_flat (by simp only [List.map_cons, List.map_nil]; decide) (by simp [Json.scalar])
  have error : ∀ e, Told (errorMessage e) := fun e =>
    told_flat (by simp only [List.map_cons, List.map_nil]; decide) (by simp [Json.scalar])
  have final : ∀ text sid, Told (finalMessage text sid) := fun text sid =>
    told_flat (by simp only [List.map_cons, List.map_nil]; decide) (by simp [Json.scalar])
  intro v member
  cases op with
  | abort =>
    rw [answer_abort] at member
    exact List.mem_singleton.mp member ▸ error _
  | turn prompt resumeSession =>
    rw [answer_turn] at member
    rcases List.mem_cons.mp member with rfl | member
    · exact accepted _
    · split at member
      · cases member
      · split at member
        · exact List.mem_singleton.mp member ▸ error _
        · exact List.mem_singleton.mp member ▸ final _ _

theorem told_replies (n : Nat) (ops : List Op) : ∀ v ∈ replies flags n ops, Told v :=
  along_forall told_answer ops

theorem replies_events (n : Nat) (ops : List Op) :
    (replies flags n ops).filterMap ClaudeAdapter.eventOf =
      along countOp (calledFor flags) n ops := by
  rw [replies, ← along_filterMap]
  congr 1
  funext n op
  obtain ⟨hang, fail⟩ := flags
  cases op with
  | abort => rfl
  | turn prompt resumeSession =>
    rw [answer_turn]
    cases hang <;> cases fail <;> rfl

theorem replies_session (n : Nat) (session : Option String) (ops : List Op) :
    after ClaudeAdapter.sessionAfter session (replies flags n ops) =
      after (sessionOf flags) session ops := by
  induction ops generalizing n session with
  | nil => rfl
  | cons op rest ih =>
    rw [replies, along_cons, after_inputs_append, after_cons]
    have here : after ClaudeAdapter.sessionAfter session (answer flags n op.toValue).1 =
        sessionOf flags session op := by
      obtain ⟨hang, fail⟩ := flags
      cases op with
      | abort => rfl
      | turn prompt resumeSession =>
        rw [answer_turn]
        cases hang <;> cases fail <;> rfl
    rw [here]
    exact ih _ _

end Calls
end Crewd.Engines
