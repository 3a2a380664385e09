import Crewd.Chain.Log
import Crewd.Lib.HashChain

/-! What verification accepts: a file whose events recompute to their hashes and
link up from the genesis. A run of successful appends, reopened at any points,
leaves such a file. -/
namespace Crewd
open HashChain

section Lines

theorem linesFrom_line {text : List Char} (whole : '\n' ∉ text) : ∀ (line rest : List Char),
    linesFrom line (text ++ '\n' :: rest) = stripReturn (line ++ text) :: linesFrom [] rest := by
  induction text with
  | nil => intro line rest; simp [linesFrom]
  | cons c text ih =>
    intro line rest
    rw [List.mem_cons, not_or] at whole
    rw [List.cons_append, linesFrom, if_neg (Ne.symm whole.1), ih whole.2, List.append_assoc]
    rfl

theorem newline_not_line (event : AuditEvent) : '\n' ∉ event.line := Json.newline_not_rendered _

theorem line_opens (event : AuditEvent) : ∃ inner, event.line = '{' :: (inner ++ ['}']) :=
  ⟨_, rfl⟩

theorem stripReturn_line (event : AuditEvent) : stripReturn event.line = event.line := by
  obtain ⟨inner, text⟩ := line_opens event
  rw [stripReturn, if_neg]
  rw [text, ← List.cons_append, List.getLast?_concat]
  decide

theorem line_not_blank (event : AuditEvent) : event.line.all whiteSpace = false := by
  obtain ⟨inner, text⟩ := line_opens event
  rw [text, List.all_cons]
  rfl

/-- The file after some appends. -/
def logText (events : List AuditEvent) : List Char := events.flatMap fun event => event.line ++ ['\n']

theorem linesFrom_logText (events : List AuditEvent) (rest : List Char) :
    linesFrom [] (logText events ++ rest) = events.map AuditEvent.line ++ linesFrom [] rest := by
  induction events with
  | nil => rfl
  | cons event later ih =>
    rw [logText, List.flatMap_cons, List.append_assoc, List.append_assoc, List.singleton_append,
      linesFrom_line (newline_not_line event), List.nil_append, stripReturn_line, List.map_cons]
    exact congrArg _ ih

theorem eventLines_logText (events : List AuditEvent) (rest : List Char) :
    eventLines (logText events ++ rest) = events.map AuditEvent.line ++ eventLines rest := by
  rw [eventLines, linesFrom_logText, List.filter_append, List.filter_eq_self.mpr]
  · rfl
  · intro line member
    obtain ⟨event, -, rfl⟩ := List.mem_map.mp member
    simp [line_not_blank]

theorem eventLines_events (events : List AuditEvent) :
    eventLines (logText events) = events.map AuditEvent.line := by
  have lines := eventLines_logText events []
  rwa [List.append_nil, show eventLines [] = [] from rfl, List.append_nil] at lines

theorem readToString_utf8 (text : List Char) :
    readToString (String.ofList text).toUTF8 = some text := by
  simp [readToString]

end Lines

section Events

/-- An event whose detail is a value of `serde_json` without floats. -/
def plain (detail : Option Json) : Prop := ∀ value ∈ detail, value.Ordered ∧ value.FloatFree

/-- Printing an event and reading its line gives the event back. -/
def ReadsBack [SerdeJson] : Prop := ∀ event : AuditEvent, plain event.detail →
  (SerdeJson.fromStr event.line).map Subtype.val = some event.toValue

def prevHashOf (value : Value) : String := value.1.text "prev_hash"

def hashOf (value : Value) : String := value.1.text "hash"

/-- The hash recomputed from what a line holds. -/
def digestOf [Platform] (value : Value) : String :=
  eventHash (value.1.remove "hash") (prevHashOf value)

/-- The `hash` field is the recomputed one. -/
def Sealed [Platform] (value : Value) : Prop := digestOf value = hashOf value

theorem hash_toValue (event : AuditEvent) : event.toValue.text "hash" = event.hash := by
  simp [Json.text, Json.get, AuditEvent.toValue, List.lookup_cons, Json.asStr]

theorem prevHash_toValue (event : AuditEvent) :
    event.toValue.text "prev_hash" = event.prevHash := by
  simp [Json.text, Json.get, AuditEvent.toValue, List.lookup_cons, Json.asStr]

theorem head_toValue (event : AuditEvent) :
    ((event.toValue.get "hash").bind Json.asStr).getD genesisHash = event.hash := by
  simp [Json.get, AuditEvent.toValue, List.lookup_cons, Json.asStr]

/-- The hash covers an event as if its own hash were not there. -/
theorem remove_toValue (event : AuditEvent) (hash : String) :
    { event with hash := hash }.toValue.remove "hash" = event.toValue.remove "hash" := by
  simp [AuditEvent.toValue, Json.remove]

end Events

section Reader

theorem toValue_ordered {event : AuditEvent} (known : plain event.detail) :
    event.toValue.Ordered := by
  have text : ∀ value : String, (Json.str value).Ordered := fun _ => ⟨trivial, by simp [Json.children]⟩
  have none : Json.null.Ordered := ⟨trivial, by simp [Json.children]⟩
  have optional : ∀ value : Option String, (textOrNull value).Ordered := by
    rintro (_ | value)
    · exact none
    · exact text value
  have detail : (event.detail.getD .null).Ordered := by
    cases held : event.detail with
    | none => exact none
    | some value => exact (known value (by simp [held])).1
  constructor
  · simp only [AuditEvent.toValue, Json.sortedKeys, List.map_cons, List.map_nil]
    decide
  · simp only [AuditEvent.toValue, Json.children, List.map_cons, List.map_nil, List.forall_mem_cons,
      List.not_mem_nil, false_implies, implies_true, and_true]
    exact ⟨detail, text _, optional _, text _, text _, optional _, text _, text _, optional _, text _⟩

theorem toValue_of_line {first second : AuditEvent} (same : first.line = second.line) :
    first.toValue = second.toValue := by
  have whole : first.line ++ [] = second.line ++ [] := by rw [same]
  have fields := (object_split whole).1
  simp only [List.cons.injEq, Prod.mk.injEq, true_and, and_true] at fields
  simp only [AuditEvent.toValue, fields]

open Classical in
/-- A reader that reads what is written, and nothing else. -/
noncomputable abbrev SerdeJson.ofWriter : SerdeJson where
  fromStr text :=
    if written : ∃ event : AuditEvent, plain event.detail ∧ event.line = text then
      some ⟨written.choose.toValue, toValue_ordered written.choose_spec.1⟩
    else none

theorem readsBack_ofWriter : @ReadsBack SerdeJson.ofWriter := by
  intro event known
  have written : ∃ other : AuditEvent, plain other.detail ∧ other.line = event.line :=
    ⟨event, known, rfl⟩
  have read : SerdeJson.ofWriter.fromStr event.line =
      some ⟨written.choose.toValue, toValue_ordered written.choose_spec.1⟩ := dif_pos written
  rw [read]
  exact congrArg some (toValue_of_line written.choose_spec.2)

end Reader

section Walk

variable [Platform] [SerdeJson]

/-- The events of a file: what its lines hold, if each of them can be read. -/
def eventsOf : Option ByteArray → Option (List Value)
  | none => some []
  | some bytes => (readToString bytes).bind fun text => (eventLines text).mapM SerdeJson.fromStr

omit [Platform] in
theorem mapM_cons_iff {line : List Char} {value : Value} (read : SerdeJson.fromStr line = some value)
    (rest : List (List Char)) (values : List Value) :
    (line :: rest).mapM SerdeJson.fromStr = some values ↔
      ∃ later, rest.mapM SerdeJson.fromStr = some later ∧ value :: later = values := by
  simp [List.mapM_cons, read, Option.bind_eq_some_iff]

theorem walk_cons {line : List Char} {value : Value} (read : SerdeJson.fromStr line = some value)
    (index : Nat) (start : String) (rest : List (List Char)) :
    AuditChain.walk index start (line :: rest) =
      if digestOf value ≠ hashOf value ∨ prevHashOf value ≠ start then
        .broken (value.1.text "event_id") index
      else AuditChain.walk (index + 1) (hashOf value) rest := by
  rw [AuditChain.walk, read]
  rfl

theorem walk_ok_iff {headHash : String} {count : Nat} : ∀ {lines : List (List Char)} {index : Nat}
    {start : String}, AuditChain.walk index start lines = .ok headHash count ↔
    ∃ values, lines.mapM SerdeJson.fromStr = some values ∧ Linked prevHashOf digestOf start values ∧
      (∀ value ∈ values, Sealed value) ∧ headHash = head digestOf start values ∧
      count = index + values.length := by
  intro lines
  induction lines with
  | nil =>
    intro index start
    simp [AuditChain.walk, eq_comm]
  | cons line rest ih =>
    intro index start
    cases read : SerdeJson.fromStr line with
    | none => simp [AuditChain.walk, List.mapM_cons, read]
    | some value =>
      rw [walk_cons read]
      by_cases broken : digestOf value ≠ hashOf value ∨ prevHashOf value ≠ start
      · rw [if_pos broken]
        constructor
        · intro wrong; cases wrong
        · rintro ⟨values, held, linked, intact, -⟩
          obtain ⟨later, -, rfl⟩ := (mapM_cons_iff read rest values).mp held
          rcases broken with altered | unlinked
          · exact absurd (intact value List.mem_cons_self) altered
          · exact absurd linked.1 unlinked
      · rw [if_neg broken]
        rw [not_or, not_not, not_not] at broken
        rw [← broken.1, ih]
        constructor
        · rintro ⟨later, held, linked, intact, rfl, rfl⟩
          refine ⟨value :: later, (mapM_cons_iff read rest _).mpr ⟨later, held, rfl⟩,
            ⟨broken.2, linked⟩, List.forall_mem_cons.mpr ⟨broken.1, intact⟩, rfl, ?_⟩
          rw [List.length_cons]
          omega
        · rintro ⟨values, held, linked, intact, rfl, rfl⟩
          obtain ⟨later, read', rfl⟩ := (mapM_cons_iff read rest values).mp held
          refine ⟨later, read', linked.2, (List.forall_mem_cons.mp intact).2, rfl, ?_⟩
          rw [List.length_cons]
          omega

/-- Verification succeeds on a chain from the genesis, and reports its head and length. -/
theorem verify_ok_iff {file : Option ByteArray} {headHash : String} {count : Nat} :
    AuditChain.verify file = .ok headHash count ↔
      ∃ values, eventsOf file = some values ∧ Linked prevHashOf digestOf genesisHash values ∧
        (∀ value ∈ values, Sealed value) ∧ headHash = head digestOf genesisHash values ∧
        count = values.length := by
  cases file with
  | none => simp [AuditChain.verify, eventsOf, eq_comm]
  | some bytes =>
    rw [AuditChain.verify, eventsOf]
    cases text : readToString bytes with
    | none => simp
    | some text => simp [walk_ok_iff]

end Walk

end Crewd
