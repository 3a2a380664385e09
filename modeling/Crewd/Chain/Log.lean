import Crewd.Audit
import Crewd.Chain.Canonical

/-! The audit chain on disk: one JSON line for each event, linked by hashes. An
append may fail at each of its three calls, and leaves in the file what was
written before the failure. -/
namespace Crewd

/-- A value as `serde_json` holds it. -/
abbrev Value := { value : Json // value.Ordered }

/-- The reader of `serde_json`: the value that a text stands for. -/
class SerdeJson where
  fromStr : List Char → Option Value

section Fields

def Json.get (value : Json) (key : String) : Option Json :=
  match value with
  | .obj fields => fields.lookup key
  | _ => none

def Json.asStr : Json → Option String
  | .str text => some text
  | _ => none

/-- A text field, empty when it is missing or something else. -/
def Json.text (value : Json) (key : String) : String := ((value.get key).bind Json.asStr).getD ""

def Json.remove (value : Json) (key : String) : Json :=
  match value with
  | .obj fields => .obj (fields.filter fun field => field.1 ≠ key)
  | other => other

end Fields

section Events

def genesisHash : String := "0000000000000000000000000000000000000000000000000000000000000000"

structure AuditEvent where
  eventId : String
  ts : String
  kind : String
  messageId : Option String
  fromCell : Option String
  toCell : Option String
  outcome : String
  detail : Option Json
  prevHash : String
  hash : String

/-- `serde_json::to_value`: a map, in the order of its keys. -/
def AuditEvent.toValue (event : AuditEvent) : Json := .obj [
  ("detail", event.detail.getD .null),
  ("event_id", .str event.eventId),
  ("from", textOrNull event.fromCell),
  ("hash", .str event.hash),
  ("kind", .str event.kind),
  ("message_id", textOrNull event.messageId),
  ("outcome", .str event.outcome),
  ("prev_hash", .str event.prevHash),
  ("to", textOrNull event.toCell),
  ("ts", .str event.ts)]

/-- `serde_json::to_string`: the fields in the order of the structure. -/
def AuditEvent.line (event : AuditEvent) : List Char := (Json.obj [
  ("event_id", .str event.eventId),
  ("ts", .str event.ts),
  ("kind", .str event.kind),
  ("message_id", textOrNull event.messageId),
  ("from", textOrNull event.fromCell),
  ("to", textOrNull event.toCell),
  ("outcome", .str event.outcome),
  ("detail", event.detail.getD .null),
  ("prev_hash", .str event.prevHash),
  ("hash", .str event.hash)]).render

variable [Platform]

/-- The hash of an event whose `hash` field is removed. -/
def eventHash (value : Json) (prevHash : String) : String :=
  Platform.sha256 (String.ofList value.canonical ++ prevHash)

/-- The event an append writes after the given head. -/
def AuditEventDraft.event (draft : AuditEventDraft) (eventId ts headHash : String) : AuditEvent :=
  let forHash : AuditEvent := {
    eventId := eventId
    ts := ts
    kind := draft.kind
    messageId := draft.messageId
    fromCell := draft.fromCell
    toCell := draft.toCell
    outcome := draft.outcome
    detail := draft.detail
    prevHash := headHash
    hash := "" }
  { forHash with hash := eventHash (forHash.toValue.remove "hash") headHash }

end Events

section Files

/-- `read_to_string`: fails on bytes that are no UTF-8. -/
def readToString (bytes : ByteArray) : Option (List Char) := bytes.utf8Decode?.map Array.toList

/-- A line without the carriage return that stood before its line feed. -/
def stripReturn (line : List Char) : List Char :=
  if line.getLast? = some '\r' then line.dropLast else line

/-- `str::lines`, with the part of the current line that is already read. -/
def linesFrom (line : List Char) : List Char → List (List Char)
  | [] => if line = [] then [] else [line]
  | c :: rest =>
    if c = '\n' then stripReturn line :: linesFrom [] rest else linesFrom (line ++ [c]) rest

/-- `char::is_whitespace`. -/
def whiteSpace (c : Char) : Bool :=
  let n := c.toNat
  (9 ≤ n ∧ n ≤ 13) ∨ n = 32 ∨ n = 0x85 ∨ n = 0xA0 ∨ n = 0x1680 ∨ (0x2000 ≤ n ∧ n ≤ 0x200A) ∨
    n = 0x2028 ∨ n = 0x2029 ∨ n = 0x202F ∨ n = 0x205F ∨ n = 0x3000

/-- The lines that are not blank. -/
def eventLines (text : List Char) : List (List Char) :=
  (linesFrom [] text).filter fun line => ¬ line.all whiteSpace

end Files

inductive VerifyResult where
  | ok (headHash : String) (events : Nat)
  | broken (eventId : String) (index : Nat)
deriving DecidableEq, Repr

/-- The chain in memory; the path is the file it is given. -/
structure AuditChain where
  headHash : String
deriving DecidableEq

/-- What becomes of the file while an append runs: nothing fails, it does not open,
the write stops after some bytes, or the fsync fails. -/
inductive Write where
  | done
  | unopened (error : String)
  | cut (error : String) (written : Nat)
  | unsynced (error : String)

namespace AuditChain

variable [Platform] [SerdeJson]

omit [Platform] in
/-- `AuditChain::open`; no file is an empty chain. -/
def openAt : Option ByteArray → Except String AuditChain
  | none => .ok ⟨genesisHash⟩
  | some bytes =>
    match readToString bytes with
    | none => .error "stream did not contain valid UTF-8"
    | some text =>
      match (eventLines text).getLast? with
      | none => .ok ⟨genesisHash⟩
      | some line =>
        match SerdeJson.fromStr line with
        | none => .error "invalid JSON"
        | some value => .ok ⟨((value.1.get "hash").bind Json.asStr).getD genesisHash⟩

omit [SerdeJson] in
def append (chain : AuditChain) (file : Option ByteArray) (eventId ts : String)
    (draft : AuditEventDraft) (write : Write) :
    Except String AuditEvent × AuditChain × Option ByteArray :=
  match assertKind draft.kind with
  | .error e => (.error e.display, chain, file)
  | .ok () =>
    let event := draft.event eventId ts chain.headHash
    let line := (String.ofList (event.line ++ ['\n'])).toUTF8
    let before := file.getD .empty
    match write with
    | .unopened e => (.error e, chain, file)
    | .cut e written => (.error e, chain, some (before ++ line.extract 0 written))
    | .unsynced e => (.error e, chain, some (before ++ line))
    | .done => (.ok event, ⟨event.hash⟩, some (before ++ line))

/-- The walk of `AuditChain::verify` from a line on. -/
def walk (index : Nat) (prevEventHash : String) : List (List Char) → VerifyResult
  | [] => .ok prevEventHash index
  | line :: rest =>
    match SerdeJson.fromStr line with
    | none => .broken "" index
    | some value =>
      let hash := value.1.text "hash"
      let prevHash := value.1.text "prev_hash"
      let recomputed := eventHash (value.1.remove "hash") prevHash
      if recomputed ≠ hash ∨ prevHash ≠ prevEventHash then
        .broken (value.1.text "event_id") index
      else walk (index + 1) hash rest

def verify : Option ByteArray → VerifyResult
  | none => .ok genesisHash 0
  | some bytes =>
    match readToString bytes with
    | none => .broken "" 0
    | some text => walk 0 genesisHash (eventLines text)

end AuditChain

section Runs

/-- What the daemon does with its chain: appends, each with the identifier and the
time it draws, and reopenings of the file. -/
inductive ChainOp where
  | append (eventId ts : String) (draft : AuditEventDraft) (write : Write)
  | reopen

/-- The file, the chain of the running daemon if it has one, and the events whose
append succeeded. -/
structure ChainState where
  file : Option ByteArray
  chain : Option AuditChain
  appended : List AuditEvent

variable [Platform] [SerdeJson]

/-- A daemon that cannot open its chain does not run. -/
def ChainState.step (s : ChainState) : ChainOp → ChainState
  | .reopen => { s with chain := (AuditChain.openAt s.file).toOption }
  | .append eventId ts draft write =>
    match s.chain with
    | none => s
    | some chain =>
      match chain.append s.file eventId ts draft write with
      | (.ok event, chain, file) => ⟨file, some chain, s.appended ++ [event]⟩
      | (.error _, chain, file) => { s with file := file, chain := some chain }

def ChainState.run (s : ChainState) (ops : List ChainOp) : ChainState := ops.foldl ChainState.step s

/-- A new daemon: no file, and the chain opened on it. -/
def ChainState.new : ChainState := ⟨none, some ⟨genesisHash⟩, []⟩

end Runs

end Crewd
