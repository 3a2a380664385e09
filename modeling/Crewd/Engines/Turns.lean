import Crewd.Engines.Link
import Crewd.Lib.Chains

/-! The shim of the claude engine. Each turn that a line of its input asks for hangs on the
promise of the turn before it, and while a turn runs its engine streams messages; lines, callbacks
and messages may come in any order. -/
namespace Crewd.Engines
open Fabric (EngineEvent)
open Machines Chains

section Texts

/-- What JavaScript takes for true. -/
def truthy : Json → Bool
  | .null => false
  | .bool value => value
  | .num n => n ≠ 0
  | .neg _ => true
  | .float f => (f.text.takeWhile (· ≠ 'e')).any fun c => c.isDigit && c ≠ '0'
  | .str s => s ≠ ""
  | .arr _ | .obj _ => true

def readyMessage : Json := .obj [("ev", .str "ready"), ("session_id", .null)]

def noteMessage (text : Json) : Json := .obj [("ev", .str "note"), ("text", text)]

/-- The end of a turn, which may have named no session. -/
def endMessage (finalAnswer : String) (sessionId : Option String) : Json := .obj [
  ("ev", .str "final"), ("final_answer", .str finalAnswer), ("session_id", textOrNull sessionId)]

/-- The characters within the first 16-bit units, unless these end within a character. -/
def sliceUnits : Nat → List Char → Option (List Char)
  | 0, _ => some []
  | _ + 1, [] => some []
  | n + 1, c :: rest =>
    if c.toNat < 0x10000 then (sliceUnits n rest).map (c :: ·)
    else
      match n with
      | 0 => none
      | n + 1 => (sliceUnits n rest).map (c :: ·)

def isBreak (c : Char) : Bool := c = '\r' || c = '\n'

/-- A blank for each run of line breaks. -/
def joinBreaks : List Char → List Char
  | [] => []
  | c :: rest =>
    if isBreak c then if rest.head?.any isBreak then joinBreaks rest else ' ' :: joinBreaks rest
    else c :: joinBreaks rest

/-- The line for an error, unless half a character is left of its text. -/
def safeErr (raw : List Char) : Option Json :=
  (sliceUnits 8 raw).map fun prefix' => errorMessage (.ofList (joinBreaks prefix'))

end Texts

section Messages

def noteOf (block : Json) : Option Json :=
  match block.get "text" with
  | some text => if truthy text then some (noteMessage text) else none
  | none => none

/-- The notes that a message of the engine makes. -/
def notes (message : Json) : List Json :=
  if message.getStr "type" = some "assistant" then
    match (message.get "message").bind (·.get "content") with
    | some (.arr blocks) => blocks.filterMap noteOf
    | _ => []
  else []

/-- The answer and the session after a message of the engine. -/
def resultAfter (result : String × Option String) (message : Json) : String × Option String :=
  if message.getStr "type" = some "result" then
    ((message.getStr "result").getD result.1, (message.getStr "session_id").or result.2)
  else result

/-- The working directory and the variable for the model. -/
structure ShimHost where
  cwd : String
  model : Option String

/-- An option that is given only when it is true. -/
def optional (key : String) (value : Option Json) : List (String × Json) :=
  match value with
  | some v => if truthy v then [(key, v)] else []
  | none => []

def queryOptions (host : ShimHost) (resumeSession : Option Json) : Json :=
  .obj ([("allowDangerouslySkipPermissions", .bool true), ("cwd", .str host.cwd)] ++
    optional "model" (host.model.map .str) ++
    [("permissionMode", .str "bypassPermissions")] ++ optional "resume" resumeSession)

end Messages

/-- How far a turn has come: it waits for the promise of another, or for none; it runs, with
the variables of its call; its end has been told; the promise is settled. -/
inductive TurnPhase where
  | waits (behind : Option Nat)
  | runs (number : Nat) (aborted : Bool) (result : String × Option String)
  | finished (number : Nat)
  | cleared (number : Nat)

def TurnPhase.stage : TurnPhase → Stage
  | waits behind => .waits behind
  | runs _ _ _ => .runs
  | finished _ => .finished
  | cleared _ => .cleared

def TurnPhase.number : TurnPhase → Option Nat
  | waits _ => none
  | runs number _ _ | finished number | cleared number => some number

structure AskedTurn where
  msg : Json
  phase : TurnPhase

/-- The variables of the shim. When its input has ended it waits for the promise that `running`
held then. -/
structure ClaudeShim where
  turns : List AskedTurn
  running : Option Nat
  turnCounter : Nat
  currentAbort : Option Nat
  awaited : Option (Option Nat)
  exited : Bool

/-- What happens to the shim. Messages and ends come from the engine's stream of a turn. -/
inductive ShimEvent where
  | line (msg : Option Json)
  | closes
  | begins (turn : Nat)
  | message (turn : Nat) (message : Json)
  | ends (turn : Nat)
  | throws (turn : Nat) (raw : List Char)
  | clears (turn : Nat)
  | leaves

/-- What the shim does: it writes a line for a turn, which may be unreadable, or queries the
engine for it. -/
inductive ShimEffect where
  | writes (turn : Nat) (line : Option Json)
  | queries (turn : Nat) (prompt : Option Json) (options : Json)

namespace ClaudeShim

/-- The shim comes up if the package of the engine is there. -/
def boot (sdk : Bool) : ClaudeShim × List Json :=
  (⟨[], none, 0, none, none, !sdk⟩, if sdk then [readyMessage] else [errorMessage "sdk-missing"])

def chain (s : ClaudeShim) : Chain := ⟨s.turns.map (·.phase.stage), s.running⟩

def put (s : ClaudeShim) (turn : Nat) (asked : AskedTurn) : ClaudeShim :=
  { s with turns := s.turns.set turn asked }

def abort (s : ClaudeShim) : ClaudeShim :=
  match s.currentAbort with
  | none => s
  | some turn =>
    match s.turns[turn]? with
    | some ⟨msg, .runs number _ result⟩ => s.put turn ⟨msg, .runs number true result⟩
    | _ => s

def handle (s : ClaudeShim) (msg : Json) : ClaudeShim :=
  match msg.getStr "op" with
  | some "turn" =>
    { s with turns := s.turns ++ [⟨msg, .waits s.running⟩], running := some s.turns.length }
  | some "abort" => s.abort
  | some "exit" => { s.abort with exited := true }
  | _ => s

def runTurn (host : ShimHost) (s : ClaudeShim) (turn : Nat) (msg : Json) :
    ClaudeShim × List ShimEffect :=
  let number := s.turnCounter + 1
  ({ s.put turn ⟨msg, .runs number false ("", none)⟩ with
      turnCounter := number
      currentAbort := some turn },
    [.writes turn (some (acceptedMessage s!"t-{number}")),
      .queries turn (msg.get "prompt") (queryOptions host (msg.get "resume_session"))])

/-- A turn ends with this line. -/
def finish (s : ClaudeShim) (turn : Nat) (msg : Json) (number : Nat) (line : Option Json) :
    ClaudeShim × List ShimEffect :=
  ({ s.put turn ⟨msg, .finished number⟩ with currentAbort := none }, [.writes turn line])

/-- The shim, unless it has exited, and what it does. -/
def act (host : ShimHost) (s : ClaudeShim) : ShimEvent → ClaudeShim × List ShimEffect
  | .line msg => (if s.awaited.isNone then (msg.map s.handle).getD s else s, [])
  | .closes => (if s.awaited.isNone then { s with awaited := some s.running } else s, [])
  | .begins turn =>
    match s.turns[turn]? with
    | some ⟨msg, .waits behind⟩ => if s.chain.frees behind then s.runTurn host turn msg else (s, [])
    | _ => (s, [])
  | .message turn message =>
    match s.turns[turn]? with
    | some ⟨msg, .runs number aborted result⟩ =>
      (s.put turn ⟨msg, .runs number aborted (resultAfter result message)⟩,
        (notes message).map fun note => .writes turn (some note))
    | _ => (s, [])
  | .ends turn =>
    match s.turns[turn]? with
    | some ⟨msg, .runs number _ (finalAnswer, sessionId)⟩ =>
      s.finish turn msg number (some (endMessage finalAnswer sessionId))
    | _ => (s, [])
  | .throws turn raw =>
    match s.turns[turn]? with
    | some ⟨msg, .runs number aborted _⟩ =>
      s.finish turn msg number (if aborted then some (errorMessage "aborted") else safeErr raw)
    | _ => (s, [])
  | .clears turn =>
    match s.turns[turn]? with
    | some ⟨msg, .finished number⟩ => ({ s.put turn ⟨msg, .cleared number⟩ with running := none }, [])
    | _ => (s, [])
  | .leaves => ({ s with exited := s.awaited.any s.chain.frees }, [])

def step (host : ShimHost) (s : ClaudeShim) (e : ShimEvent) : ClaudeShim :=
  if s.exited then s else (s.act host e).1

def does (host : ShimHost) (s : ClaudeShim) (e : ShimEvent) : List ShimEffect :=
  if s.exited then [] else (s.act host e).2

/-- The move that an event makes in the queue of promises. -/
def moveOf (s : ClaudeShim) : ShimEvent → Option Move
  | .line (some msg) =>
    if s.awaited.isNone ∧ msg.getStr "op" = some "turn" then some .push else none
  | .begins turn => some (.start turn)
  | .ends turn | .throws turn _ => some (.finish turn)
  | .clears turn => some (.clear turn)
  | .line none | .closes | .message _ _ | .leaves => none

section Queue
variable {s : ClaudeShim} {turn : Nat} {asked : AskedTurn}

theorem chain_stage (s : ClaudeShim) (turn : Nat) :
    s.chain.stages[turn]? = (s.turns[turn]?).map (·.phase.stage) := List.getElem?_map

theorem stage_of (here : s.turns[turn]? = some asked) :
    s.chain.stages[turn]? = some asked.phase.stage := by
  rw [chain_stage, here]
  rfl

theorem waits_of_stage {behind : Option Nat}
    (waits : s.chain.stages[turn]? = some (Stage.waits behind)) :
    ∃ msg, s.turns[turn]? = some ⟨msg, .waits behind⟩ := by
  rw [chain_stage] at waits
  obtain ⟨⟨msg, phase⟩, here, stage⟩ := Option.map_eq_some_iff.mp waits
  cases phase with
  | waits other =>
    cases stage
    exact ⟨msg, here⟩
  | runs | finished | cleared => cases stage

theorem runs_of_stage (runs : s.chain.stages[turn]? = some Stage.runs) :
    ∃ msg number aborted result, s.turns[turn]? = some ⟨msg, .runs number aborted result⟩ := by
  rw [chain_stage] at runs
  obtain ⟨⟨msg, phase⟩, here, stage⟩ := Option.map_eq_some_iff.mp runs
  cases phase with
  | runs number aborted result => exact ⟨msg, number, aborted, result, here⟩
  | waits | finished | cleared => cases stage

theorem finished_of_stage (ended' : s.chain.stages[turn]? = some Stage.finished) :
    ∃ msg number, s.turns[turn]? = some ⟨msg, .finished number⟩ := by
  rw [chain_stage] at ended'
  obtain ⟨⟨msg, phase⟩, here, stage⟩ := Option.map_eq_some_iff.mp ended'
  cases phase with
  | finished number => exact ⟨msg, number, here⟩
  | waits | runs | cleared => cases stage

theorem chain_put (s : ClaudeShim) (turn : Nat) (asked : AskedTurn) :
    (s.put turn asked).chain = ⟨s.chain.stages.set turn asked.phase.stage, s.running⟩ := by
  rw [chain, put, List.map_set]
  rfl

/-- A turn that is put where one of its stage was leaves the queue as it is. -/
theorem chain_put_same (here : s.turns[turn]? = some asked) {other : AskedTurn}
    (same : other.phase.stage = asked.phase.stage) : (s.put turn other).chain = s.chain := by
  obtain ⟨within, value⟩ := List.getElem?_eq_some_iff.mp (stage_of here)
  rw [chain_put, same, ← value, List.set_getElem_self]
  rfl

theorem chain_abort (s : ClaudeShim) : s.abort.chain = s.chain := by
  unfold abort
  split
  · rfl
  · split
    · next here => exact chain_put_same here rfl
    · rfl

theorem chain_handle (s : ClaudeShim) (msg : Json) : (s.handle msg).chain =
    if msg.getStr "op" = some "turn" then s.chain.move .push else s.chain := by
  unfold handle
  split
  · next op => simp [op, chain, Chain.move, TurnPhase.stage]
  · next op =>
    rw [op, if_neg (by simp)]
    exact chain_abort s
  · next op =>
    rw [op, if_neg (by simp)]
    exact chain_abort s
  · next other _ _ =>
    rw [if_neg other]

theorem chain_act (host : ShimHost) (s : ClaudeShim) (e : ShimEvent) :
    (s.act host e).1.chain = ((s.moveOf e).map s.chain.move).getD s.chain := by
  cases e with
  | line msg =>
    cases msg with
    | none => simp [act, moveOf]
    | some msg =>
      by_cases listens : s.awaited.isNone = true <;>
        by_cases op : msg.getStr "op" = some "turn" <;>
          simp [act, moveOf, listens, op, chain_handle]
  | closes =>
    rw [act]
    split <;> rfl
  | begins turn =>
    rw [act, moveOf, Option.map_some, Option.getD_some, Chain.move, Chain.mayStart]
    split
    · next msg behind here =>
      rw [stage_of here]
      by_cases free : s.chain.frees behind = true
      · rw [if_pos free]
        simp only [TurnPhase.stage, free, if_true]
        exact chain_put s turn _
      · rw [if_neg free]
        simp [TurnPhase.stage, free]
    · next other =>
      split
      · next behind waits =>
        obtain ⟨msg, here⟩ := waits_of_stage waits
        exact absurd here (other msg behind)
      · rfl
  | message turn message =>
    rw [act]
    split
    · next here => exact chain_put_same here rfl
    · rfl
  | ends turn =>
    rw [act, moveOf, Option.map_some, Option.getD_some, Chain.move]
    split
    · next here =>
      have runs : s.chain.stages[turn]? = some Stage.runs := stage_of here
      rw [if_pos runs]
      exact chain_put s turn _
    · next other =>
      rw [if_neg]
      intro runs
      obtain ⟨msg, number, aborted, result, here⟩ := runs_of_stage runs
      exact other _ _ _ _ _ here
  | throws turn raw =>
    rw [act, moveOf, Option.map_some, Option.getD_some, Chain.move]
    split
    · next here =>
      have runs : s.chain.stages[turn]? = some Stage.runs := stage_of here
      rw [if_pos runs]
      exact chain_put s turn _
    · next other =>
      rw [if_neg]
      intro runs
      obtain ⟨msg, number, aborted, result, here⟩ := runs_of_stage runs
      exact other _ _ _ _ here
  | clears turn =>
    rw [act, moveOf, Option.map_some, Option.getD_some, Chain.move]
    split
    · next here =>
      have ended' : s.chain.stages[turn]? = some Stage.finished := stage_of here
      rw [if_pos ended']
      exact congrArg (fun c : Chain => Chain.mk c.stages none) (chain_put s turn _)
    · next other =>
      rw [if_neg]
      intro ended'
      obtain ⟨msg, number, here⟩ := finished_of_stage ended'
      exact other _ _ here
  | leaves => rfl

end Queue
end ClaudeShim

section Transcripts

def ShimEffect.turn : ShimEffect → Nat
  | writes turn _ | queries turn _ _ => turn

def ShimEffect.lineOf (turn : Nat) : ShimEffect → Option (Option Json)
  | writes other line => if other = turn then some line else none
  | queries _ _ _ => none

def ShimEffect.queryOf (turn : Nat) : ShimEffect → Option (Option Json × Json)
  | writes _ _ => none
  | queries other prompt options => if other = turn then some (prompt, options) else none

namespace ClaudeShim

/-- What the stream of a turn brings to its call. -/
def hears (turn : Nat) (s : ClaudeShim) : ShimEvent → List Json
  | .message other message =>
    if other = turn ∧ s.exited = false ∧ s.chain.stages[turn]? = some Stage.runs then [message]
    else []
  | _ => []

def tells (host : ShimHost) (turn : Nat) (s : ClaudeShim) (e : ShimEvent) : List (Option Json) :=
  (s.does host e).filterMap (ShimEffect.lineOf turn)

def asks (host : ShimHost) (turn : Nat) (s : ClaudeShim) (e : ShimEvent) :
    List (Option Json × Json) := (s.does host e).filterMap (ShimEffect.queryOf turn)

end ClaudeShim
open ClaudeShim

/-- How a turn may end: with its result, with an error for its abort, or with any other. -/
inductive Ending (result : String × Option String) : Option Json → Prop where
  | final : Ending result (some (endMessage result.1 result.2))
  | aborted : Ending result (some (errorMessage "aborted"))
  | error (raw : List Char) : Ending result (safeErr raw)

def query (host : ShimHost) (msg : Json) : Option Json × Json :=
  (msg.get "prompt", queryOptions host (msg.get "resume_session"))

def accepting (number : Nat) : Option Json := some (acceptedMessage s!"t-{number}")

/-- What a step means for one turn: what it hears, writes and asks, before and after. -/
inductive Turned (host : ShimHost) : Option AskedTurn → List Json → List (Option Json) →
    List (Option Json × Json) → Option AskedTurn → Prop where
  | still (turn : Option AskedTurn) : Turned host turn [] [] [] turn
  | asked (msg : Json) (behind : Option Nat) :
      Turned host none [] [] [] (some ⟨msg, .waits behind⟩)
  | begun (msg : Json) (behind : Option Nat) (number : Nat) :
      Turned host (some ⟨msg, .waits behind⟩) [] [accepting number] [query host msg]
        (some ⟨msg, .runs number false ("", none)⟩)
  | streams (msg : Json) (number : Nat) (aborted : Bool) (result : String × Option String)
      (message : Json) : Turned host (some ⟨msg, .runs number aborted result⟩) [message]
        ((notes message).map some) []
        (some ⟨msg, .runs number aborted (resultAfter result message)⟩)
  | aborted (msg : Json) (number : Nat) (aborted : Bool) (result : String × Option String) :
      Turned host (some ⟨msg, .runs number aborted result⟩) [] [] []
        (some ⟨msg, .runs number true result⟩)
  | ended (msg : Json) (number : Nat) (aborted : Bool) (result : String × Option String)
      (line : Option Json) (ending : Ending result line) :
      Turned host (some ⟨msg, .runs number aborted result⟩) [] [line] []
        (some ⟨msg, .finished number⟩)
  | settled (msg : Json) (number : Nat) :
      Turned host (some ⟨msg, .finished number⟩) [] [] [] (some ⟨msg, .cleared number⟩)

section Steps
variable {host : ShimHost} {s : ClaudeShim} {turn other : Nat} {old new : AskedTurn}

theorem turns_put (here : s.turns[turn]? = some old) (other : Nat) :
    (s.put turn new).turns[other]? = if turn = other then some new else s.turns[other]? := by
  obtain ⟨within, _⟩ := List.getElem?_eq_some_iff.mp here
  rw [put, List.getElem?_set]
  split
  · simp
  · rfl

/-- A step of one turn, as any turn sees it. -/
theorem turned_put {stream : List Json} {lines : List (Option Json)}
    {queries : List (Option Json × Json)} (here : s.turns[turn]? = some old)
    (own : Turned host (some old) stream lines queries (some new)) (other : Nat) :
    Turned host s.turns[other]? (if turn = other then stream else [])
      (if turn = other then lines else []) (if turn = other then queries else [])
      (s.put turn new).turns[other]? := by
  rw [turns_put here]
  by_cases same : turn = other
  · subst same
    rw [here]
    simpa using own
  · simpa [same] using Turned.still _

theorem lines_of (turn other : Nat) (lines : List (Option Json)) :
    (lines.map (.writes turn)).filterMap (ShimEffect.lineOf other) =
      if turn = other then lines else [] := by
  rw [List.filterMap_map]
  by_cases same : turn = other
  · have own : ShimEffect.lineOf other ∘ .writes turn = some := by
      funext line
      exact if_pos same
    rw [own, List.filterMap_some, if_pos same]
  · have blind : ∀ line ∈ lines, (ShimEffect.lineOf other ∘ .writes turn) line = none :=
      fun line _ => if_neg same
    rw [List.filterMap_eq_nil_iff.mpr blind, if_neg same]

theorem queries_of (turn other : Nat) (lines : List (Option Json)) :
    (lines.map (.writes turn)).filterMap (ShimEffect.queryOf other) = [] := by
  rw [List.filterMap_map]
  exact List.filterMap_eq_nil_iff.mpr fun line _ => rfl

/-- A step that writes lines for one turn. -/
theorem turned_writes {stream : List Json} {lines : List (Option Json)}
    (here : s.turns[turn]? = some old) (own : Turned host (some old) stream lines [] (some new))
    (other : Nat) : Turned host s.turns[other]? (if turn = other then stream else [])
      ((lines.map (.writes turn)).filterMap (ShimEffect.lineOf other))
      ((lines.map (.writes turn)).filterMap (ShimEffect.queryOf other))
      (s.put turn new).turns[other]? := by
  rw [lines_of, queries_of]
  simpa using turned_put here own other

theorem turned_abort (host : ShimHost) (s : ClaudeShim) (other : Nat) :
    Turned host s.turns[other]? [] [] [] s.abort.turns[other]? := by
  unfold abort
  split
  · exact .still _
  · split
    · next here => simpa using turned_put here (.aborted _ _ _ _) other
    · exact .still _

theorem turned_handle (host : ShimHost) (s : ClaudeShim) (msg : Json) (other : Nat) :
    Turned host s.turns[other]? [] [] [] (s.handle msg).turns[other]? := by
  unfold handle
  split
  · dsimp only
    rcases Nat.lt_trichotomy other s.turns.length with within | rfl | beyond
    · rw [List.getElem?_append_left within]
      exact .still _
    · rw [List.getElem?_append_right (Nat.le_refl _), Nat.sub_self,
        List.getElem?_eq_none (Nat.le_refl _)]
      exact .asked _ _
    · rw [List.getElem?_eq_none (Nat.le_of_lt beyond), List.getElem?_eq_none (by simp; omega)]
      exact .still _
  · exact turned_abort host s other
  · exact turned_abort host s other
  · exact .still _

theorem turned_step (host : ShimHost) (s : ClaudeShim) (e : ShimEvent) (other : Nat) :
    Turned host s.turns[other]? (s.hears other e) (s.tells host other e) (s.asks host other e)
      (s.step host e).turns[other]? := by
  by_cases gone : s.exited = true
  · have unheard : s.hears other e = [] := by
      cases e <;> simp [hears, gone]
    rw [unheard, tells, asks, does, step, if_pos gone, if_pos gone]
    exact .still _
  · rw [tells, asks, does, step, if_neg gone, if_neg gone]
    cases e with
    | line msg =>
      rw [act]
      dsimp only
      split
      · cases msg with
        | none => exact .still _
        | some msg => exact turned_handle host s msg other
      · exact .still _
    | closes =>
      rw [act]
      dsimp only
      split <;> exact .still _
    | begins turn =>
      rw [act]
      split
      · next msg behind here =>
        split
        · have own : Turned host _ _ _ _ _ := .begun msg behind (s.turnCounter + 1)
          have seen := turned_put here own other
          by_cases same : turn = other
          · subst same
            simpa [runTurn, hears, ShimEffect.lineOf, ShimEffect.queryOf, List.filterMap_cons,
              accepting, query] using seen
          · simpa [runTurn, hears, ShimEffect.lineOf, ShimEffect.queryOf, List.filterMap_cons,
              same] using seen
        · exact .still _
      · exact .still _
    | message turn message =>
      rw [act]
      split
      · next msg number aborted result here =>
        have own : Turned host _ _ _ _ _ := .streams msg number aborted result message
        have seen := turned_writes here own other
        have runs : s.chain.stages[turn]? = some Stage.runs := stage_of here
        rw [List.map_map] at seen
        by_cases same : turn = other
        · subst same
          rw [if_pos rfl] at seen
          rw [hears, if_pos ⟨rfl, by simpa using gone, runs⟩]
          exact seen
        · rw [if_neg same] at seen
          rw [hears, if_neg fun here => same here.1]
          exact seen
      · next idle =>
        have unheard : s.hears other (.message turn message) = [] := by
          rw [hears, if_neg]
          rintro ⟨rfl, _, runs⟩
          obtain ⟨msg, number, aborted, result, here⟩ := runs_of_stage runs
          exact idle _ _ _ _ here
        rw [unheard]
        exact .still _
    | ends turn =>
      rw [act]
      split
      · next msg number aborted finalAnswer sessionId here =>
        have own : Turned host _ _ _ _ _ :=
          .ended msg number aborted (finalAnswer, sessionId) _ .final
        have seen := turned_writes here own other
        rw [ite_self] at seen
        exact seen
      · exact .still _
    | throws turn raw =>
      rw [act]
      split
      · next msg number aborted result here =>
        have ending :
            Ending result (if aborted then some (errorMessage "aborted") else safeErr raw) := by
          cases aborted with
          | true => exact .aborted
          | false => exact .error raw
        have own : Turned host _ _ _ _ _ := .ended msg number aborted result _ ending
        have seen := turned_writes here own other
        rw [ite_self] at seen
        exact seen
      · exact .still _
    | clears turn =>
      rw [act]
      split
      · next msg number here =>
        have own : Turned host _ _ _ _ _ := .settled msg number
        have seen := turned_put here own other
        rw [ite_self, ite_self, ite_self] at seen
        exact seen
      · exact .still _
    | leaves => exact .still _

end Steps

section Runs
variable {host : ShimHost} {stream heard : List Json} {lines said : List (Option Json)}
  {queries asked : List (Option Json × Json)} {before after' : Option AskedTurn}

/-- What a turn that runs has written so far. -/
def opening (number : Nat) (stream : List Json) : List (Option Json) :=
  accepting number :: (stream.flatMap notes).map some

def resultOf (stream : List Json) : String × Option String := stream.foldl resultAfter ("", none)

/-- What has been heard, written and asked for a turn, and where it is. -/
inductive Transcript (host : ShimHost) : List Json → List (Option Json) →
    List (Option Json × Json) → Option AskedTurn → Prop where
  | unasked : Transcript host [] [] [] none
  | waits (msg : Json) (behind : Option Nat) : Transcript host [] [] [] (some ⟨msg, .waits behind⟩)
  | runs (msg : Json) (number : Nat) (aborted : Bool) (stream : List Json) :
      Transcript host stream (opening number stream) [query host msg]
        (some ⟨msg, .runs number aborted (resultOf stream)⟩)
  | ended (msg : Json) (number : Nat) (phase : TurnPhase) (stream : List Json) (line : Option Json)
      (ending : Ending (resultOf stream) line)
      (ended' : phase = .finished number ∨ phase = .cleared number) :
      Transcript host stream (opening number stream ++ [line]) [query host msg]
        (some ⟨msg, phase⟩)

theorem Transcript.running {msg : Json} {number : Nat} {aborted : Bool}
    {result : String × Option String} (transcript : Transcript host stream lines queries
      (some ⟨msg, .runs number aborted result⟩)) :
    lines = opening number stream ∧ queries = [query host msg] ∧ result = resultOf stream := by
  generalize found : (some _ : Option AskedTurn) = turn at transcript
  cases transcript with
  | unasked | waits => cases found
  | ended _ _ _ _ _ _ ended' => rcases ended' with rfl | rfl <;> cases found
  | runs =>
    cases found
    exact ⟨rfl, rfl, rfl⟩

theorem Transcript.turned (transcript : Transcript host stream lines queries before)
    (turned : Turned host before heard said asked after') :
    Transcript host (stream ++ heard) (lines ++ said) (queries ++ asked) after' := by
  cases turned with
  | still => simpa using transcript
  | asked msg behind =>
    cases transcript
    exact .waits msg behind
  | begun msg behind number =>
    cases transcript with
    | waits => exact .runs msg number false []
    | ended _ _ _ _ _ _ ended' => rcases ended' with same | same <;> cases same
  | streams msg number aborted result message =>
    obtain ⟨rfl, rfl, rfl⟩ := transcript.running
    have written : opening number stream ++ (notes message).map some =
        opening number (stream ++ [message]) := by simp [opening]
    have result : resultAfter (resultOf stream) message = resultOf (stream ++ [message]) := by
      simp [resultOf]
    rw [written, result, List.append_nil]
    exact .runs msg number aborted (stream ++ [message])
  | aborted msg number aborted result =>
    obtain ⟨rfl, rfl, rfl⟩ := transcript.running
    simp only [List.append_nil]
    exact .runs msg number true stream
  | ended msg number aborted result line ending =>
    obtain ⟨rfl, rfl, rfl⟩ := transcript.running
    simp only [List.append_nil]
    exact .ended msg number _ stream line ending (.inl rfl)
  | settled msg number =>
    generalize found : (some ⟨msg, .finished number⟩ : Option AskedTurn) = turn at transcript
    cases transcript with
    | unasked | waits | runs => cases found
    | ended _ _ _ _ line ending ended' =>
      rcases ended' with rfl | rfl
      · cases found
        simp only [List.append_nil]
        exact .ended msg number _ stream line ending (.inr rfl)
      · cases found

/-- Whatever order things come in, each turn that has started asks the engine once, with its own
prompt and session, and its lines are its acceptance, the notes of its own stream, and one end. -/
theorem turns_transcribed (host : ShimHost) (sdk : Bool) (events : List ShimEvent) (turn : Nat) :
    Transcript host (along (step host) (hears turn) (boot sdk).1 events)
      (along (step host) (tells host turn) (boot sdk).1 events)
      (along (step host) (asks host turn) (boot sdk).1 events)
      (after (step host) (boot sdk).1 events).turns[turn]? := by
  induction events using List.reverseRecOn with
  | nil => exact .unasked
  | append_singleton past e ih =>
    rw [along_concat, along_concat, along_concat, after_concat]
    exact ih.turned (turned_step host _ e turn)

end Runs
end Transcripts
end Crewd.Engines
