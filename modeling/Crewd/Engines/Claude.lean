import Crewd.Engines.Child

/-! The claude adapter. A session that is to be resumed goes along with the next turn only,
and the session that the child names at the end of a turn is kept for the owner. -/
namespace Crewd.Engines
open Fabric (EngineEvent)
open Machines

/-- The cell that is shared with the reader thread holds the last session. -/
structure ClaudeAdapter where
  child : LineChild (Option String)
  pendingResume : Option String

/-- What an adapter asks of its child. -/
inductive Op where
  | turn (prompt : String) (resumeSession : Option String)
  | abort
deriving DecidableEq, Repr

def Op.toValue : Op → Json
  | turn prompt resumeSession => .obj [("op", .str "turn"), ("prompt", .str prompt),
      ("resume_session", textOrNull resumeSession)]
  | abort => .obj [("op", .str "abort")]

namespace ClaudeAdapter

def eventOf (v : Json) : Option EngineEvent :=
  match (v.getStr "ev").getD "" with
  | "accepted" => some (.accepted ((v.getStr "engine_turn_id").getD ""))
  | "note" => some (.note ((v.getStr "text").getD ""))
  | "final" => some (.final ((v.getStr "final_answer").getD ""))
  | "error" => some (.failed ((v.getStr "error").getD ""))
  | _ => none

/-- The session after a value: the end of a turn may name one. -/
def sessionAfter (session : Option String) (v : Json) : Option String :=
  if (v.getStr "ev").getD "" = "final" then (v.getStr "session_id").or session else session

/-- The closure for the reader thread. -/
def parse : Parse (Option String) := fun session v => (eventOf v, sessionAfter session v)

def startTurn (a : ClaudeAdapter) (payload : String) (sending : Sending) :
    Except BusError Unit × ClaudeAdapter :=
  let (r, child) := a.child.send (Op.turn payload a.pendingResume).toValue sending
  (r, ⟨child, none⟩)

def pollEvents (a : ClaudeAdapter) : List EngineEvent × ClaudeAdapter :=
  let (events, child) := a.child.poll
  (events, { a with child := child })

def interrupt (a : ClaudeAdapter) (sending : Sending) : Except BusError Unit × ClaudeAdapter :=
  let (r, child) := a.child.send Op.abort.toValue sending
  (r, { a with child := child })

def resumeSession (a : ClaudeAdapter) (engineSessionId : String) : ClaudeAdapter :=
  { a with pendingResume := some engineSessionId }

def engineSessionId (a : ClaudeAdapter) : Option String := a.child.shared

def procState (a : ClaudeAdapter) : EngineProcState := a.child.procState

variable [SerdeJson]

def shutdown (a : ClaudeAdapter) (left : List (List Char)) : ClaudeAdapter :=
  { a with child := a.child.shutdown parse left }

def step (a : ClaudeAdapter) : AdapterStep → ClaudeAdapter
  | .reads lines ends => { a with child := a.child.reads parse lines ends }
  | .startTurn payload sending => (a.startTurn payload sending).2
  | .pollEvents => a.pollEvents.2
  | .interrupt sending => (a.interrupt sending).2
  | .resumeSession engineSessionId => a.resumeSession engineSessionId
  | .shutdown left => a.shutdown left

/-- The values that the reader thread handles during a step. -/
def hearing (a : ClaudeAdapter) : AdapterStep → List Json
  | .reads lines _ => a.child.values lines
  | .shutdown left => a.child.values left
  | _ => []

omit [SerdeJson] in
/-- The requests that a step puts into the pipe. -/
def asks (a : ClaudeAdapter) : AdapterStep → List Op
  | .startTurn payload sending =>
    if a.child.stdin ∧ sending.arrives then [.turn payload a.pendingResume] else []
  | .interrupt sending => if a.child.stdin ∧ sending.arrives then [.abort] else []
  | _ => []

omit [SerdeJson] in
/-- The events that a step gives to the owner. -/
def polled (a : ClaudeAdapter) : AdapterStep → List EngineEvent
  | .pollEvents => a.pollEvents.1
  | _ => []

omit [SerdeJson] in
theorem along_parse (session : Option String) (vs : List Json) :
    along (LineChild.cell parse) (LineChild.emits parse) session vs = vs.filterMap eventOf := by
  induction vs generalizing session with
  | nil => rfl
  | cons v rest ih =>
    rw [along_cons, ih, LineChild.emits, parse, List.filterMap_cons]
    cases eventOf v <;> rfl

/-- What a step makes of an adapter. -/
theorem step_eq (a : ClaudeAdapter) (step : AdapterStep) :
    (a.step step).child.rx = (match step with | .pollEvents => [] | _ => a.child.rx) ++
        (a.hearing step).filterMap eventOf ∧
      (a.step step).child.shared = after sessionAfter a.child.shared (a.hearing step) ∧
      (a.step step).child.written = a.child.written ++ (a.asks step).map Op.toValue := by
  cases step with
  | reads lines ends =>
    rw [ClaudeAdapter.step, LineChild.reads_eq, along_parse]
    exact ⟨rfl, rfl, (List.append_nil _).symm⟩
  | startTurn payload sending =>
    have sent : (a.startTurn payload sending).2.child = _ := a.child.send_eq
      (Op.turn payload a.pendingResume).toValue sending
    rw [ClaudeAdapter.step, sent, asks]
    exact ⟨(List.append_nil _).symm, rfl, by split <;> rfl⟩
  | pollEvents => exact ⟨rfl, rfl, (List.append_nil _).symm⟩
  | interrupt sending =>
    have sent : (a.interrupt sending).2.child = _ := a.child.send_eq Op.abort.toValue sending
    rw [ClaudeAdapter.step, sent, asks]
    exact ⟨(List.append_nil _).symm, rfl, by split <;> rfl⟩
  | resumeSession sid => exact ⟨(List.append_nil _).symm, rfl, (List.append_nil _).symm⟩
  | shutdown left =>
    rw [ClaudeAdapter.step, shutdown, LineChild.shutdown, LineChild.reads_eq, along_parse]
    exact ⟨rfl, rfl, (List.append_nil _).symm⟩

end ClaudeAdapter
end Crewd.Engines
