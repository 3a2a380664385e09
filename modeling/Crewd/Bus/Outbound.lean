import Crewd.Bus.Store
import Crewd.Handler

/-! The submitting tools `cell_send`, `cell_ask` and `cell_broadcast`: the gates
in their order, the dedupe decision, and the writes of a fresh submission. -/
namespace Crewd.Bus
open Autocommit Concurrent

abbrev Handler (α : Type) := Crewd.Handler Store Memory Outside Mark α

structure SendParams where
  toCell : String
  body : String
  fileRefs : List String
  idempotencyKey : Option String
  ttlSeconds : Option Nat
  msgType : Option MsgType

structure AskParams where
  toCell : String
  body : String
  fileRefs : List String
  idempotencyKey : Option String
  ttlSeconds : Option Nat

structure BroadcastParams where
  body : String
  fileRefs : List String
  idempotencyKey : Option String
  ttlSeconds : Option Nat
  msgType : Option MsgType

/-- Successful answers; the texts of `status` in the source name the case. -/
inductive Answer where
  | enqueued (messageId : String)
  | pendingAsk (askId : Option String) (messageId : String)
  | fannedOut (messageId : String) (recipients : List String)
  | answered (reply : Envelope)
  | answeredStub (messageId : Option String) (askId : String)
  | expired
  | pending
  | recorded (messageId : String)
  | duplicate (messageId : String)
  | messages (messages : List Envelope) (hasMore : Bool)
  | correlated
  | status (pendingDeliveries openAsks : Nat)
deriving DecidableEq

section Gates

def currentAcl : Handler Acl := locked (readMemory (·.acl))

def checkCapability (caller : String) (cap : Capability) : Handler Unit := do
  let acl ← currentAcl
  raise (acl.check caller cap)

def checkMsgType (caller : String) (msgType : MsgType) : Handler Unit := do
  let acl ← currentAcl
  match msgType with
  | .adminRequest => raise (acl.check caller .adminRegistry)
  | .ask => raise (acl.check caller .ask)
  | .reply => raise (acl.check caller .reply)
  | _ => pure ()

/-- File references need a capability of their own. -/
def checkAttachFiles (caller : String) (fileRefs : List String) : Handler Unit :=
  if fileRefs.isEmpty then pure () else checkCapability caller .attachFiles

/-- An audited rejection; a failing audit write supersedes the error. -/
def refuse {α : Type} (kind caller : String) (target : Option String) (outcome : String)
    (e : BusError) : Handler α := do
  locked (audit kind none (some caller) target outcome none)
  throw e

/-- Capability, then registered recipient, then protected reach. -/
def authorizeOutbound (caller target : String) (cap : Capability) (via : ReachVia) :
    Handler Unit := do
  let acl ← currentAcl
  raise (acl.check caller cap)
  if acl.isRegistered target then
    match acl.checkReach caller target via with
    | .ok () => pure ()
    | .error e => refuse "protected_access_denied" caller (some target) "denied" e
  else throw (.unknownCell s!"{target} not registered")

def checkQuota (f : QuotaTracker → Except BusError Unit × QuotaTracker) :
    Handler (Except BusError Unit) :=
  locked (writeMemory fun m => ((f m.quota).1, { m with quota := (f m.quota).2 }))

def enforceQuota (caller : String) (target : Option String)
    (f : QuotaTracker → Except BusError Unit × QuotaTracker) : Handler Unit := do
  match ← checkQuota f with
  | .ok () => pure ()
  | .error e => refuse "quota_exceeded" caller target "rejected" e

/-- Queue depth of the recipient, then the sender and capability windows. -/
def admitOutbound (caller target : String) (cap : Capability) (units : Nat) : Handler Unit := do
  let pending ← locked (pendingDeliveriesCount target)
  enforceQuota caller (some target) fun q => (q.checkQueueDepth pending, q)
  let now ← locked nowMs
  enforceQuota caller (some target) (·.noteAndCheckSender caller now units)
  enforceQuota caller (some target) (·.noteAndCheckCapability caller cap now)

end Gates

section Submitting
variable [Platform]

/-- The envelope fields that a tool sets; the daemon derives the others. -/
structure EnvelopeDraft where
  kind : Kind
  msgType : MsgType
  fromCell : String
  toCell : Option String
  body : String
  fileRefs : List String
  askId : Option String
  replyTo : Option String
  idempotencyKey : String
  ttlSecs : Nat
  seq : Nat

def buildEnvelope (draft : EnvelopeDraft) : Act Envelope := do
  let messageId ← newUuidv7
  let createdAt ← nowRfc3339
  let expiresAt ← rfc3339After draft.ttlSecs
  pure {
    specVersion := specVersion
    messageId := messageId
    askId := draft.askId
    fromCell := draft.fromCell
    toCell := draft.toCell
    kind := draft.kind
    msgType := draft.msgType
    principalCapabilities := []
    createdAt := createdAt
    expiresAt := expiresAt
    seq := draft.seq
    idempotencyKey := draft.idempotencyKey
    body := draft.body
    fileRefs := draft.fileRefs
    taint := taint
    replyTo := draft.replyTo }

def buildEnvelopeWithCaps (draft : EnvelopeDraft) : Act Envelope := do
  let env ← buildEnvelope draft
  let acl ← readMemory (·.acl)
  pure { env with principalCapabilities := acl.capabilitiesOf draft.fromCell }

/-- A client key, or a fresh one. -/
def keyOrNew (key : Option String) : Act String :=
  match key with
  | some key => pure key
  | none => newUuidv7

/-- The dedupe decision: replay the bound answer when the body hash agrees, refuse
when it does not, and submit afresh when the key is not bound. -/
def deduped (caller key body : String) (replay : DedupeHit → Answer) (fresh : Act Answer) :
    Act Answer := do
  match ← dedupeLookup caller key with
  | some hit =>
    if hit.bodySha256 = Platform.sha256 body then pure (replay hit)
    else throw (.dup "idempotency key reused with different body")
  | none => fresh

def auditEnqueued (messageId caller target : String) : Act Unit :=
  audit "enqueued" (some messageId) (some caller) (some target) "ok" none

def freshSend (caller : String) (p : SendParams) (key : String) : Act Answer := do
  let seq ← nextSeq caller p.toCell
  let env ← buildEnvelopeWithCaps {
    kind := .send, msgType := p.msgType.getD .task, fromCell := caller, toCell := some p.toCell,
    body := p.body, fileRefs := p.fileRefs, askId := none, replyTo := none,
    idempotencyKey := key, ttlSecs := clampTtl .send p.ttlSeconds, seq := seq }
  insertEnvelope env
  auditEnqueued env.messageId caller p.toCell
  insertDelivery env.messageId p.toCell
  dedupeInsert caller key env.messageId none (Platform.sha256 p.body)
  pure (.enqueued env.messageId)

def submitSend (caller : String) (p : SendParams) : Act Answer := do
  let key ← keyOrNew p.idempotencyKey
  deduped caller key p.body (fun hit => .enqueued hit.messageId) (freshSend caller p key)

def freshAsk (caller : String) (p : AskParams) (key askId : String) : Act Answer := do
  let ttl := clampTtl .ask p.ttlSeconds
  let seq ← nextSeq caller p.toCell
  let env ← buildEnvelopeWithCaps {
    kind := .ask, msgType := .ask, fromCell := caller, toCell := some p.toCell,
    body := p.body, fileRefs := p.fileRefs, askId := some askId, replyTo := none,
    idempotencyKey := key, ttlSecs := ttl, seq := seq }
  insertEnvelope env
  auditEnqueued env.messageId caller p.toCell
  audit "ask_opened" (some env.messageId) (some caller) (some p.toCell) "ok"
    (some (.obj [("ask_id", .str askId)]))
  insertDelivery env.messageId p.toCell
  let expiresAt ← rfc3339After ttl
  insertAsk askId env.messageId caller p.toCell expiresAt
  dedupeInsert caller key env.messageId (some askId) (Platform.sha256 p.body)
  pure (.pendingAsk (some askId) env.messageId)

def submitAsk (caller : String) (p : AskParams) : Act Answer := do
  let key ← keyOrNew p.idempotencyKey
  let askId ← newUuidv7
  deduped caller key p.body (fun hit => .pendingAsk hit.askId hit.messageId)
    (freshAsk caller p key askId)

/-- The detail of a fan-out event. -/
def fanoutDetail (included denied : List String) : Json :=
  .obj [("recipients", .arr (included.map .str)), ("denied", .arr (denied.map .str))]

def freshBroadcast (caller : String) (p : BroadcastParams) (included denied : List String)
    (key : String) : Act Answer := do
  let env ← buildEnvelopeWithCaps {
    kind := .broadcast, msgType := p.msgType.getD .note, fromCell := caller, toCell := none,
    body := p.body, fileRefs := p.fileRefs, askId := none, replyTo := none,
    idempotencyKey := key, ttlSecs := clampTtl .broadcast p.ttlSeconds, seq := 0 }
  insertEnvelope env
  denied.forM fun d =>
    audit "protected_access_denied" (some env.messageId) (some caller) (some d) "denied" none
  audit "broadcast_fanned_out" (some env.messageId) (some caller) none "ok"
    (some (fanoutDetail included denied))
  included.forM fun r => insertDelivery env.messageId r
  dedupeInsert caller key env.messageId none (Platform.sha256 p.body)
  pure (.fannedOut env.messageId included)

def submitBroadcast (caller : String) (p : BroadcastParams) (included denied : List String) :
    Act Answer := do
  let key ← keyOrNew p.idempotencyKey
  deduped caller key p.body (fun hit => .fannedOut hit.messageId included)
    (freshBroadcast caller p included denied key)

def handleSend (caller : String) (params : Params SendParams) : Handler Answer := do
  raise (rejectClientIdentityKeys params.keys [])
  let p ← raise (parseParams params)
  checkMsgType caller (p.msgType.getD .task)
  authorizeOutbound caller p.toCell .send .send
  raise (checkIdem (p.idempotencyKey.getD ""))
  raise (checkBody p.body)
  checkAttachFiles caller p.fileRefs
  admitOutbound caller p.toCell .send 1
  locked (submitSend caller p)

def handleAsk (caller : String) (params : Params AskParams) : Handler Answer := do
  raise (rejectClientIdentityKeys params.keys [])
  let p ← raise (parseParams params)
  authorizeOutbound caller p.toCell .ask .ask
  raise (checkIdem (p.idempotencyKey.getD ""))
  raise (checkBody p.body)
  checkAttachFiles caller p.fileRefs
  admitOutbound caller p.toCell .ask 1
  let openAsks ← locked (pendingAsksCount caller)
  enforceQuota caller (some p.toCell) fun q => (q.checkPendingAskCap openAsks, q)
  locked (submitAsk caller p)

def handleBroadcast (caller : String) (params : Params BroadcastParams) : Handler Answer := do
  raise (rejectClientIdentityKeys params.keys [])
  let p ← raise (parseParams params)
  checkMsgType caller (p.msgType.getD .note)
  raise (checkIdem (p.idempotencyKey.getD ""))
  raise (checkBody p.body)
  checkAttachFiles caller p.fileRefs
  let acl ← currentAcl
  raise (acl.check caller .broadcast)
  let (included, denied) := acl.recipientsForBroadcast caller
  let now ← locked nowMs
  enforceQuota caller none (·.noteAndCheckSender caller now (max included.length 1))
  enforceQuota caller none (·.noteAndCheckCapability caller .broadcast now)
  locked (submitBroadcast caller p included denied)

end Submitting
end Crewd.Bus
