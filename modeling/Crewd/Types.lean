import Mathlib.Algebra.GroupWithZero.Nat
import Mathlib.Algebra.Ring.Int.Defs
import Mathlib.Logic.Function.Basic

/-! Envelope types, limit constants, stable error codes and RFC 3339 time.
Strings are measured in UTF-8 bytes, as the limits of the protocol are. -/
namespace Crewd

/-- The external crates the daemon relies on: UUIDv7 minting, which never
repeats an identifier, and the hexadecimal SHA-256 digest of a text. -/
class Platform where
  uuid : Nat → String
  uuid_injective : Function.Injective uuid
  sha256 : String → String

inductive BusError where
  | aclDenied (message : String)
  | authRejected (message : String)
  | unknownCell (message : String)
  | ttlExpired (message : String)
  | wouldDeadlock (message : String)
  | quota (message : String)
  | bodyTooLarge (message : String)
  | dup (message : String)
  | askNotFound (message : String)
  | replyExists (message : String)
  | unsupportedSpecVersion (message : String)
  | cellBusy (message : String)
  | queueFull (message : String)
  | engineDown (message : String)
  | threadNotResumable (message : String)
  | policyDenied (message : String)
  | timeout (message : String)
  | cancelled (message : String)
  | internal (message : String)
deriving DecidableEq, Repr

def BusError.code : BusError → String
  | aclDenied _ => "E_ACL_DENIED"
  | authRejected _ => "E_AUTH_REJECTED"
  | unknownCell _ => "E_UNKNOWN_CELL"
  | ttlExpired _ => "E_TTL_EXPIRED"
  | wouldDeadlock _ => "E_WOULD_DEADLOCK"
  | quota _ => "E_QUOTA"
  | bodyTooLarge _ => "E_BODY_TOO_LARGE"
  | dup _ => "E_DUP"
  | askNotFound _ => "E_ASK_NOT_FOUND"
  | replyExists _ => "E_REPLY_EXISTS"
  | unsupportedSpecVersion _ => "E_UNSUPPORTED_SPEC_VERSION"
  | cellBusy _ => "E_CELL_BUSY"
  | queueFull _ => "E_QUEUE_FULL"
  | engineDown _ => "E_ENGINE_DOWN"
  | threadNotResumable _ => "E_THREAD_NOT_RESUMABLE"
  | policyDenied _ => "E_POLICY_DENIED"
  | timeout _ => "E_TIMEOUT"
  | cancelled _ => "E_CANCELLED"
  | internal _ => "E_INTERNAL"

def BusError.message : BusError → String
  | aclDenied m | authRejected m | unknownCell m | ttlExpired m | wouldDeadlock m | quota m
  | bodyTooLarge m | dup m | askNotFound m | replyExists m | unsupportedSpecVersion m
  | cellBusy m | queueFull m | engineDown m | threadNotResumable m | policyDenied m | timeout m
  | cancelled m | internal m => m

/-- How an error prints. -/
def BusError.display (e : BusError) : String := e.code ++ ": " ++ e.message

def specVersion : String := "0.1"
def maxBodyBytes : Nat := 65536
def maxIdempotencyKeyBytes : Nat := 128
def ttlCeilingAskSecs : Nat := 900
def ttlCeilingSendSecs : Nat := 86400
def ttlCeilingBroadcastSecs : Nat := 3600
def taint : String := "peer_untrusted"

/-- Transport kind, derived by the daemon from the tool path. -/
inductive Kind where
  | send
  | ask
  | reply
  | broadcast
  | notice
deriving DecidableEq, Repr

/-- Semantic type, independent of `Kind`. -/
inductive MsgType where
  | note
  | task
  | ask
  | reply
  | evidence
  | adminRequest
deriving DecidableEq, Repr

def Kind.asStr : Kind → String
  | send => "send"
  | ask => "ask"
  | reply => "reply"
  | broadcast => "broadcast"
  | notice => "notice"

def MsgType.asStr : MsgType → String
  | note => "note"
  | task => "task"
  | ask => "ask"
  | reply => "reply"
  | evidence => "evidence"
  | adminRequest => "admin_request"

structure Envelope where
  specVersion : String
  messageId : String
  askId : Option String
  fromCell : String
  toCell : Option String
  kind : Kind
  msgType : MsgType
  principalCapabilities : List String
  createdAt : String
  expiresAt : String
  seq : Nat
  idempotencyKey : String
  body : String
  fileRefs : List String
  taint : String
  replyTo : Option String
deriving DecidableEq, Repr

/-- The authority invariants of an envelope, its body size and its constant taint. -/
def Envelope.validateInvariants (env : Envelope) : Except BusError Unit :=
  if env.taint ≠ Crewd.taint then .error (.internal s!"taint must be {Crewd.taint}")
  else if env.kind = .broadcast ∧ env.toCell.isSome then
    .error (.internal "broadcast must have null to_cell (I3.5)")
  else if env.kind ≠ .broadcast ∧ env.toCell.isNone then
    .error (.internal "non-broadcast must have non-null to_cell (I3.5)")
  else if env.kind = .reply ∧ (env.replyTo.isNone ∨ env.askId.isNone) then
    .error (.askNotFound "reply requires reply_to + ask_id (I3.4)")
  else if env.body.utf8ByteSize > maxBodyBytes then
    .error (.bodyTooLarge s!"body {env.body.utf8ByteSize} > {maxBodyBytes} bytes")
  else .ok ()

/-- A requested TTL is clamped to the ceiling of its kind, never rejected. -/
def clampTtl (kind : Kind) (requestedSecs : Option Nat) : Nat :=
  let ceiling := match kind with
    | .ask => ttlCeilingAskSecs
    | .broadcast => ttlCeilingBroadcastSecs
    | .send | .reply | .notice => ttlCeilingSendSecs
  match requestedSecs with
  | none => ceiling
  | some s => min s ceiling

def u64Max : Nat := 2 ^ 64 - 1

/-- Saturating `u64` addition. -/
def saturatingAdd (a b : Nat) : Nat := min (a + b) u64Max

/-- Civil (proleptic Gregorian) date from days since 1970-01-01. Division of a
signed count truncates towards zero. -/
def civilFromDays (z : Int) : Int × Nat × Nat :=
  let z := z + 719468
  let era := (if z ≥ 0 then z else z - 146096).tdiv 146097
  let doe := (z - era * 146097).toNat
  let yoe := (doe - doe / 1460 + doe / 36524 - doe / 146096) / 365
  let y := (yoe : Int) + era * 400
  let doy := doe - (365 * yoe + yoe / 4 - yoe / 100)
  let mp := (5 * doy + 2) / 153
  let d := doy - (153 * mp + 2) / 5 + 1
  let m := if mp < 10 then mp + 3 else mp - 9
  (if m ≤ 2 then y + 1 else y, m, d)

/-- Decimal text, padded with zeros to at least `width` digits. -/
def padded (width n : Nat) : String :=
  let digits := toString n
  String.ofList (List.replicate (width - digits.length) '0') ++ digits

def rfc3339FromUnixSecs (secs : Nat) : String :=
  let days := secs / 86400
  let rem := secs % 86400
  let (y, mo, d) := civilFromDays days
  let date := padded 4 y.toNat ++ "-" ++ padded 2 mo ++ "-" ++ padded 2 d
  let time := padded 2 (rem / 3600) ++ ":" ++ padded 2 (rem % 3600 / 60) ++ ":" ++
    padded 2 (rem % 60)
  date ++ "T" ++ time ++ "Z"

example : rfc3339FromUnixSecs 1783242000 = "2026-07-05T09:00:00Z" := by decide

theorem padded_injective (width : Nat) : Function.Injective (padded width) := by
  intro m n same
  have digits : ∀ k, (padded width k).toList =
      List.replicate (width - (Nat.toDigits 10 k).length) '0' ++ Nat.toDigits 10 k := by
    intro k
    simp [padded, Nat.repr]
  have value : ∀ k, Nat.ofDigitChars 10 (padded width k).toList 0 = k := by
    intro k
    rw [digits, Nat.ofDigitChars_append, Nat.ofDigitChars_replicate_zero]
    simp
  rw [← value m, ← value n, same]

/-- A platform that runs can be evaluated on: identifiers of the UUIDv7 shape that
count up, and the digests of two texts. -/
@[reducible] def Platform.sample : Platform where
  uuid n := "0197d8a0-0000-7000-8000-" ++ padded 12 n
  uuid_injective _ _ same := padded_injective 12 ((String.append_right_inj _).mp same)
  sha256 text :=
    if text = "ping" then "758d61f26a44448384e5c4468a0dcb7a2abe456067b0f7b505bc28b9411fe931"
    else if text = "pong" then "9795c5ff8937f23526ccb207a5684c1fc94a7854e19c021b39d944e51f5baef2"
    else text

/-- A platform whose digests are all different. -/
@[reducible] def Platform.collisionFree : Platform :=
  { Platform.sample with sha256 := fun text => "sha256:" ++ text }

theorem sha256_injective : Function.Injective Platform.collisionFree.sha256 :=
  fun _ _ same => (String.append_right_inj _).mp same

def numberChar (c : Char) : Bool := c.isDigit || c ∈ ['-', '+', '.', 'e']

/-- A floating-point number, as the shortest text that reads back as it; the text
of an integer has neither a point nor an exponent. -/
structure FloatText where
  text : List Char
  shape : text.all numberChar ∧ ¬ text.all fun c => c.isDigit || c = '-'
deriving DecidableEq

/-- A JSON value, as audit details and responses carry it. The integer `neg n` is
`-(n + 1)`. -/
inductive Json where
  | null
  | bool (value : Bool)
  | num (value : Nat)
  | neg (value : Nat)
  | float (value : FloatText)
  | str (value : String)
  | arr (items : List Json)
  | obj (fields : List (String × Json))

/-- What the daemon sees of the JSON parameters of a request: the keys of the
object in their order, and the typed parameters or the text of the parse error. -/
structure Params (α : Type) where
  keys : List String
  parsed : Except String α

end Crewd
