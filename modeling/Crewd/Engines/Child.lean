import Crewd.Engines.Adapter
import Crewd.Lib.Lines
import Crewd.Lib.Machine

/-! The child of an engine that speaks in lines. A reader thread hands the value of each line
to the closure of the adapter, which may send an event over a channel and write a cell that
the two share; a poll takes the events that have come, and never waits. -/
namespace Crewd.Engines
open Fabric (EngineEvent)
open Machines

/-- The child, with the values whose lines have gone into the pipe to it. The reader thread
runs as long as the child counts as alive. -/
structure LineChild (ρ : Type) where
  child : Bool
  stdin : Bool
  rx : List EngineEvent
  shared : ρ
  alive : Bool
  written : List Json

/-- What an adapter makes of a value. -/
abbrev Parse (ρ : Type) := ρ → Json → Option EngineEvent × ρ

/-- The calls of an adapter, and the reader thread between them. -/
inductive AdapterStep where
  | reads (lines : List (List Char)) (ends : Bool)
  | startTurn (payload : String) (sending : Sending)
  | pollEvents
  | interrupt (sending : Sending)
  | resumeSession (engineSessionId : String)
  | shutdown (left : List (List Char))

/-- The line that a value is written as. -/
def lineOf (v : Json) : List Char := v.render ++ ['\n']

section Reading
variable [SerdeJson]

/-- The value of a line; a blank line and one that is no JSON have none. -/
def readValue (line : List Char) : Option Json :=
  let trimmed := trim line
  if trimmed.isEmpty then none else (SerdeJson.fromStr trimmed).map Subtype.val

/-- The values that are read back from their lines. -/
def Told (v : Json) : Prop := (∃ fields, v = .obj fields) ∧ v.Ordered ∧ v.Readable readDepth

omit [SerdeJson] in
theorem told_flat {fields : List (String × Json)} (sorted : (fields.map Prod.fst).Pairwise (· < ·))
    (flat : ∀ v ∈ fields.map Prod.snd, v.scalar = true) : Told (.obj fields) := by
  have inside : ∀ v ∈ fields.map Prod.snd, v.Ordered := by
    intro v member
    match v, flat v member with
    | .null, _ | .bool _, _ | .num _, _ | .neg _, _ | .str _, _ =>
      exact .node trivial (by simp [Json.children])
  exact ⟨⟨fields, rfl⟩, .node sorted inside, Json.readable_flat flat⟩

omit [SerdeJson] in
theorem trim_opened (rest : List Char) : trim ('{' :: rest) = trimEnd ('{' :: rest) := by
  rw [trim, trimStart, List.dropWhile_cons_of_neg (by decide)]

/-- The reader reads what is told, and nothing that is cut. -/
theorem readValue_faithful (reads : ReadsWritten) : Lines.Faithful readValue Json.render Told where
  clean v _ := v.newline_not_rendered
  line := by
    rintro _ ⟨⟨fields, rfl⟩, ordered, free⟩
    rw [readValue, trim_object, reads.whole ⟨_, ordered⟩ free]
    rfl
  whole := by
    rintro _ ⟨⟨fields, rfl⟩, ordered, free⟩
    have solid : trim (Json.obj fields).render = (Json.obj fields).render := by
      rw [Json.render, List.cons_append, trim_opened, ← List.cons_append,
        trimEnd_concat (by decide)]
    rw [readValue, solid, reads.whole ⟨_, ordered⟩ free]
    rfl
  cut := by
    rintro _ ⟨⟨fields, rfl⟩, _, _⟩ text rest more same
    cases text with
    | nil => rfl
    | cons c text =>
      have opens : c = '{' := by
        rw [Json.render] at same
        exact (List.cons.inj same).1
      obtain ⟨lost, cut⟩ := trimEnd_cut ('{' :: text)
      have short : SerdeJson.fromStr (trimEnd ('{' :: text)) = none := by
        apply reads.cut fields _ (lost ++ rest) (by simp [more])
        rw [← List.append_assoc, cut, ← opens, same]
      rw [readValue, opens, trim_opened, short]
      exact ite_self none

end Reading
namespace LineChild
variable {ρ : Type}

section Code
variable [SerdeJson]

/-- The reader thread handles a line. -/
def hears (parse : Parse ρ) (c : LineChild ρ) (line : List Char) : LineChild ρ :=
  match readValue line with
  | none => c
  | some v =>
    let (sent, shared) := parse c.shared v
    { c with rx := c.rx ++ sent.toList, shared := shared }

/-- The reader thread handles lines until the stream ends. -/
def reads (parse : Parse ρ) (c : LineChild ρ) (lines : List (List Char)) (ends : Bool) :
    LineChild ρ :=
  if c.alive then { lines.foldl (hears parse) c with alive := !ends } else c

omit [SerdeJson] in
def spawn (cmd : Command) (waitFirstLine : Bool) (shared : ρ) (label : String)
    (start : Command → Except String Unit) (first : Except String (List Char)) :
    Except BusError (LineChild ρ) :=
  match start cmd with
  | .error e => .error (.engineDown s!"{label} spawn: {safePrefix e}")
  | .ok () =>
    let spawned : LineChild ρ := ⟨true, true, [], shared, true, []⟩
    if waitFirstLine then
      match first with
      | .error e => .error (.engineDown s!"{label} read: {safePrefix e}")
      | .ok [] => .error (.engineDown s!"{label} closed before ready")
      | .ok (_ :: _) => .ok spawned
    else .ok spawned

omit [SerdeJson] in
def send (c : LineChild ρ) (v : Json) (sending : Sending) :
    Except BusError Unit × LineChild ρ :=
  if c.stdin then
    match sending with
    | .unwritten e => (.error (.engineDown s!"child write: {safePrefix e}"), c)
    | .unflushed e =>
      (.error (.engineDown s!"child flush: {safePrefix e}"), { c with written := c.written ++ [v] })
    | .sent => (.ok (), { c with written := c.written ++ [v] })
  else (.error (.internal "child stdin gone"), c)

omit [SerdeJson] in
def poll (c : LineChild ρ) : List EngineEvent × LineChild ρ := (c.rx, { c with rx := [] })

omit [SerdeJson] in
def procState (c : LineChild ρ) : EngineProcState := if c.alive then .up else .down

/-- The child is killed, and the reader thread joined after the lines that were left. -/
def shutdown (parse : Parse ρ) (c : LineChild ρ) (left : List (List Char)) : LineChild ρ :=
  { c.reads parse left true with child := false, stdin := false, alive := false }

end Code

/-- The cell after a value. -/
def cell (parse : Parse ρ) (shared : ρ) (v : Json) : ρ := (parse shared v).2

def emits (parse : Parse ρ) (shared : ρ) (v : Json) : List EngineEvent :=
  (parse shared v).1.toList

section Lemmas
variable [SerdeJson] {parse : Parse ρ}

/-- The values of the lines that reach a reader thread. -/
def values (c : LineChild ρ) (lines : List (List Char)) : List Json :=
  if c.alive then lines.filterMap readValue else []

theorem foldl_hears (c : LineChild ρ) (lines : List (List Char)) :
    lines.foldl (hears parse) c = { c with
      rx := c.rx ++ along (cell parse) (emits parse) c.shared (lines.filterMap readValue)
      shared := after (cell parse) c.shared (lines.filterMap readValue) } := by
  induction lines generalizing c with
  | nil => simp
  | cons line rest ih =>
    rw [List.foldl_cons, ih, hears, List.filterMap_cons]
    cases readValue line with
    | none => rfl
    | some v => simp [cell, emits]

theorem reads_eq (c : LineChild ρ) (lines : List (List Char)) (ends : Bool) :
    c.reads parse lines ends = { c with
      rx := c.rx ++ along (cell parse) (emits parse) c.shared (c.values lines)
      shared := after (cell parse) c.shared (c.values lines)
      alive := c.alive && !ends } := by
  obtain ⟨_, _, _, _, alive, _⟩ := c
  cases alive with
  | false => simp [reads, values]
  | true => simp [reads, values, foldl_hears]

omit [SerdeJson] in
/-- A send adds its value to what is written, or nothing. -/
theorem send_eq (c : LineChild ρ) (v : Json) (sending : Sending) :
    (c.send v sending).2 = { c with
      written := c.written ++ if c.stdin ∧ sending.arrives then [v] else [] } := by
  obtain ⟨_, stdin, _, _, _, _⟩ := c
  cases stdin with
  | false => simp [send]
  | true =>
    cases sending with
    | unwritten e => simp [send, Sending.arrives]
    | unflushed e => simp [send, Sending.arrives]
    | sent => simp [send, Sending.arrives]

end Lemmas
end LineChild
end Crewd.Engines
