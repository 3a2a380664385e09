import Mathlib.Data.List.Sort
import Crewd.Lib.Table
import Crewd.World
import Crewd.Quota
import Crewd.Tickets

/-! Message tables of the store: envelopes, deliveries, asks, submission dedupe
and sequence counters, with one definition for each store operation. -/
namespace Crewd.Bus
open Autocommit Table

inductive DeliveryState where
  | queued
  | claimed
  | delivered
  | acked
  | failed
  | expired
deriving DecidableEq, Repr

def DeliveryState.debug : DeliveryState → String
  | queued => "Queued"
  | claimed => "Claimed"
  | delivered => "Delivered"
  | acked => "Acked"
  | failed => "Failed"
  | expired => "Expired"

def DeliveryState.asStr : DeliveryState → String
  | queued => "queued"
  | claimed => "claimed"
  | delivered => "delivered"
  | acked => "acked"
  | failed => "failed"
  | expired => "expired"

def transitionAllowed : DeliveryState → DeliveryState → Bool
  | .queued, .claimed
  | .claimed, .delivered
  | .claimed, .queued
  | .claimed, .failed
  | .delivered, .acked
  | .queued, .failed
  | .queued, .expired
  | .claimed, .expired => true
  | _, _ => false

structure Delivery where
  envelopeId : String
  recipient : String
  state : DeliveryState
  attempts : Nat
  leaseUntil : Option Int
  nextRetryAt : Int
deriving DecidableEq, Repr

inductive AskState where
  | pending
  | answered
  | expired
deriving DecidableEq, Repr

/-- The columns of an ask that readers see. -/
structure AskRow where
  askId : String
  messageId : String
  fromCell : String
  toCell : String
  expiresAt : String
  state : AskState
  replyMessageId : Option String
deriving DecidableEq, Repr

structure Ask extends AskRow where
  replyBodySha256 : Option String
deriving DecidableEq, Repr

structure DedupeHit where
  messageId : String
  askId : Option String
  bodySha256 : String
deriving DecidableEq, Repr

structure Dedupe extends DedupeHit where
  fromCell : String
  idempotencyKey : String
  createdAt : String
deriving DecidableEq, Repr

structure SeqCounter where
  fromCell : String
  toCell : String
  nextSeq : Nat
deriving DecidableEq, Repr

structure Store where
  envelopes : List Envelope
  deliveries : List Delivery
  asks : List Ask
  dedupe : List Dedupe
  seqCounters : List SeqCounter
deriving DecidableEq, Repr

def Store.empty : Store := ⟨[], [], [], [], []⟩

/-- `tokio::sync::Notify`: at most one stored permit, waiters in arrival order,
and the waiters that were notified and have not run since. -/
structure Notify where
  permit : Bool
  waiting : List Nat
  notified : List Nat
deriving DecidableEq, Repr

structure CrewdConfig where
  leaseSecs : Nat
  maxAttempts : Nat
  backoffBaseSecs : Nat
  backoffCapSecs : Nat

/-- In-memory part of the daemon state; adapters are the recipients with one. -/
structure Memory where
  acl : Acl
  quota : QuotaTracker
  graph : WaitForGraph
  adapters : List String
  askWakers : List (String × Notify)
  cfg : CrewdConfig

inductive DeliveryOutcome where
  | delivered
  | acked
  | transientFailure
  | permanentFailure
  | notReady
deriving DecidableEq, Repr

/-- What a start of the daemon reads from its files and is wired with. -/
structure Start where
  acl : Acl
  quota : QuotaConfig
  adapters : List String
  cfg : CrewdConfig

/-- What the outside decides: the drawn retry jitter, an adapter's outcome, a
passed deadline, and whether and with what the daemon starts. -/
structure Outside where
  jitter : Bool
  outcome : DeliveryOutcome
  deadline : Bool
  start : Option Start

/-- Why the state of delivery rows was updated. -/
inductive Cause where
  | released
  | claimed
  | outcome
  | retried
  | expired
  | pulled
deriving DecidableEq, Repr

/-- Steps of the deliveries' lives that statements about runs speak of. -/
inductive Passage where
  | enqueued (env : Envelope) (recipient : String)
  | moved (cause : Cause) (messageId recipient : String) (before after : DeliveryState)
  | swept (nowRfc3339 : String)
  | claiming (nowMs : Nat) (held : List (String × String))
  | offered (messageId recipient : String)
  | applying (messageId recipient : String) (outcome : DeliveryOutcome) (row : Option Delivery)
      (maxAttempts : Nat) (failing : Bool)
  | announced (kind messageId recipient : String)
  | pulling (recipient : String) (chosen : List Envelope) (nowMs : Nat)
  | shown (recipient : String) (chosen : List Envelope)
deriving DecidableEq

/-- Steps of one ask's life that statements about runs speak of, and the steps of
the deliveries. -/
inductive Mark where
  | firstRead (task : Nat) (ask : AskRow)
  | registered (task : Nat) (askId : String) (permit : Bool)
  | woke (task : Nat) (askId : String)
  | slept (task : Nat) (askId : String)
  | resumed (task : Nat) (askId : String)
  | reread (task : Nat) (ask : AskRow)
  | fetching (task : Nat) (messageId : String) (failing : Bool)
  | committed (askId : String) (reply : Option String)
  | notified (askId : String)
  | passed (passage : Passage)
  | restarted
deriving DecidableEq

abbrev World := Crewd.World Store Memory Outside Mark
abbrev Act (α : Type) := Crewd.Act Store Memory Outside Mark α

def db (text : String) : BusError := .internal text

/-- The recipients' queues are bounded by this, per recipient. -/
def Memory.queueDepth (m : Memory) : Nat := m.quota.config.queueDepth

def note (passage : World → Passage) : Act Unit := Action.step fun w =>
  ((), { w with history := .passed (passage w) :: w.history })

section Sequence

def SeqCounter.is (fromCell toCell : String) (row : SeqCounter) : Bool :=
  row.fromCell = fromCell ∧ row.toCell = toCell

/-- `INSERT OR IGNORE` of the pair's counter. -/
def Store.withCounter (st : Store) (fromCell toCell : String) : Store :=
  if st.seqCounters.any (·.is fromCell toCell) then st
  else { st with seqCounters := st.seqCounters ++ [⟨fromCell, toCell, 1⟩] }

def Store.countUp (st : Store) (fromCell toCell : String) : Store := { st with
  seqCounters := updateWhere (·.is fromCell toCell)
    (fun row => { row with nextSeq := row.nextSeq + 1 }) st.seqCounters }

/-- Per-pair counter, starting at 1. -/
def nextSeq (fromCell toCell : String) : Act Nat := transaction do
  execute (·.withCounter fromCell toCell)
  match ← query (·.seqCounters.find? (·.is fromCell toCell)) with
  | none => throw (db "Query returned no rows")
  | some row =>
    execute (·.countUp fromCell toCell)
    pure row.nextSeq

end Sequence

section Envelopes

def insertEnvelope (env : Envelope) : Act Unit :=
  execute fun st =>
    { st with envelopes := replaceInto (·.messageId = env.messageId) env st.envelopes }

def Store.envelope (st : Store) (messageId : String) : Option Envelope :=
  st.envelopes.find? (·.messageId = messageId)

def getEnvelope (messageId : String) : Act (Option Envelope) := query (·.envelope messageId)

end Envelopes

section Deliveries

def Delivery.is (messageId recipient : String) (row : Delivery) : Bool :=
  row.envelopeId = messageId ∧ row.recipient = recipient

def Delivery.pending (row : Delivery) : Bool := row.state = .queued ∨ row.state = .claimed

def Store.delivery (st : Store) (messageId recipient : String) : Option Delivery :=
  st.deliveries.find? (·.is messageId recipient)

def Store.pendingFor (st : Store) (recipient : String) : Nat :=
  (st.deliveries.filter fun d => d.recipient = recipient && d.pending).length

/-- The new row; the history records the envelope when there is one. -/
def insertDeliveryRow (messageId recipient : String) (w : World) : World := { w with
  store := { w.store with
    deliveries := replaceInto (·.is messageId recipient)
      ⟨messageId, recipient, .queued, 0, none, 0⟩ w.store.deliveries }
  history := ((w.store.envelope messageId).map fun env => .passed (.enqueued env recipient)).toList ++
    w.history }

def insertDelivery (messageId recipient : String) : Act Unit := do
  mayFail
  Action.step fun w => ((), insertDeliveryRow messageId recipient w)

/-- An update of delivery rows; the history records how each of them moved. -/
def moveRows (cause : Cause) (p : Delivery → Bool) (f : Delivery → Delivery) (w : World) : World :=
  { w with
    store := { w.store with deliveries := updateWhere p f w.store.deliveries }
    history := ((w.store.deliveries.filter p).map fun d =>
      .passed (.moved cause d.envelopeId d.recipient d.state (f d).state)) ++ w.history }

def moveDeliveries (cause : Cause) (p : Delivery → Bool) (f : Delivery → Delivery) : Act Unit := do
  mayFail
  Action.step fun w => ((), moveRows cause p f w)

def pendingDeliveriesCount (recipient : String) : Act Nat := query (·.pendingFor recipient)

def pendingDeliveriesTotal : Act Nat :=
  query fun st => (st.deliveries.filter (·.pending)).length

def deliveryState (messageId recipient : String) : Act DeliveryState := do
  match ← query (·.delivery messageId recipient) with
  | none => throw (db "Query returned no rows")
  | some d => pure d.state

def transition (messageId recipient : String) (target : DeliveryState) : Act Unit := do
  let now ← deliveryState messageId recipient
  if transitionAllowed now target then
    moveDeliveries .outcome (·.is messageId recipient) fun d => { d with state := target }
  else throw (.internal s!"illegal transition {now.debug}->{target.debug}")

def Delivery.lapsed (nowUnix : Int) (row : Delivery) : Bool :=
  row.state = .claimed && match row.leaseUntil with
    | some lease => lease ≤ nowUnix
    | none => false

/-- Rows of the join of deliveries and envelopes, in delivery order. -/
def Store.joined (st : Store) (keep : Delivery → Envelope → Bool) :
    List (Delivery × Envelope) :=
  st.deliveries.filterMap fun d =>
    match st.envelope d.envelopeId with
    | some env => if keep d env then some (d, env) else none
    | none => none

def Delivery.due (nowUnix : Int) (row : Delivery) : Bool :=
  row.state = .queued && row.nextRetryAt ≤ nowUnix

/-- The pending deliveries that a backoff or a lease holds back. -/
def Store.heldBack (st : Store) (nowUnix : Int) : List (String × String) :=
  (st.deliveries.filter fun d => d.pending && !d.due nowUnix).map fun d =>
    (d.envelopeId, d.recipient)

/-- Release the claims whose lease elapsed, then claim due queued deliveries. The end of a lease
is a sum without bound, where the source adds two `i64`. -/
def claimDue (nowUnix leaseSecs : Int) (max : Nat) : Act (List (Envelope × String)) := do
  moveDeliveries .released (·.lapsed nowUnix) fun d =>
    { d with state := .queued, leaseUntil := none }
  note fun w => .claiming w.peekMs (w.store.heldBack nowUnix)
  let rows ← query fun st => (st.joined fun d _ => d.due nowUnix).take max
  rows.forM fun (d, env) => do
    mayFail
    moveDeliveries .claimed (·.is env.messageId d.recipient) fun d =>
      { d with state := .claimed, leaseUntil := some (nowUnix + leaseSecs) }
  pure (rows.map fun (d, env) => (env, d.recipient))

/-- `as i64` of a `u64`. -/
def asI64 (n : Nat) : Int := (BitVec.ofNat 64 n).toInt

/-- `(attempts_i as u32) + 1`, wrapping as the release build does. -/
def nextAttempts (attempts : Nat) : Nat := (attempts + 1) % 2 ^ 32

/-- `checked_shl` drops the bits shifted out and fails from a shift of 64 on; `attempts - 1`
is a `u32`, so that no attempts at all give the largest shift. -/
def backoffExp (backoffBaseSecs attempts : Nat) : Nat :=
  let shift := (attempts + (2 ^ 32 - 1)) % 2 ^ 32
  if shift < 64 then backoffBaseSecs * 2 ^ shift % 2 ^ 64 else u64Max

/-- Requeue with backoff, or fail for good; answers whether attempts are exhausted. -/
def recordAttemptFailure (messageId recipient : String)
    (maxAttempts backoffBaseSecs backoffCapSecs : Nat) : Act Bool := do
  let now ← nowUnix
  match ← query (·.delivery messageId recipient) with
  | none => throw (db "Query returned no rows")
  | some d =>
    let newAttempts := nextAttempts d.attempts
    if newAttempts ≥ maxAttempts then
      moveDeliveries .retried (·.is messageId recipient) fun d =>
        { d with state := .failed, attempts := newAttempts }
      pure true
    else
      let delay := min backoffCapSecs (backoffExp backoffBaseSecs newAttempts)
      let jitter := if ← readOutside (·.jitter) then 1 else 0
      moveDeliveries .retried (·.is messageId recipient) fun d =>
        { d with state := .queued, attempts := newAttempts, leaseUntil := none,
                 nextRetryAt := now + asI64 delay + jitter }
      pure false

/-- Expire the pending deliveries whose envelope is past its TTL; a delivered one
stays delivered. -/
def expireDue (nowRfc3339 : String) : Act (List (String × String)) := do
  let rows ← query fun st => st.joined fun d env =>
    (d.pending || d.state = .delivered) && env.expiresAt ≤ nowRfc3339
  rows.forM fun (d, _) => do
    mayFail
    if transitionAllowed d.state .expired then
      moveDeliveries .expired (·.is d.envelopeId d.recipient) fun d => { d with state := .expired }
  note fun _ => .swept nowRfc3339
  pure ((rows.filter fun (d, _) => transitionAllowed d.state .expired).map fun (d, _) =>
    (d.envelopeId, d.recipient))

/-- The pending messages of a recipient in the order of their pull. -/
def Store.inboxOrder (st : Store) (recipient : String) : List Envelope :=
  let pending := (st.joined fun d _ => d.recipient = recipient && d.pending).map (·.2)
  pending.insertionSort fun a b => a.seq ≤ b.seq

/-- Inbox pull in ascending sequence order; answers whether more is pending. -/
def inbox (recipient : String) (limit : Nat) : Act (List Envelope × Bool) := do
  let rows ← query fun st => (st.inboxOrder recipient).take (limit + 1)
  let chosen := rows.take limit
  note fun w => .pulling recipient chosen w.peekMs
  chosen.forM fun env =>
    moveDeliveries .pulled (·.is env.messageId recipient) fun d =>
      { d with state := .delivered, leaseUntil := none }
  note fun _ => .shown recipient chosen
  pure (chosen, rows.length > limit)

end Deliveries

section Submissions

def Dedupe.is (fromCell key : String) (row : Dedupe) : Bool :=
  row.fromCell = fromCell ∧ row.idempotencyKey = key

def Store.binding (st : Store) (fromCell key : String) : Option Dedupe :=
  st.dedupe.find? (·.is fromCell key)

def dedupeLookup (fromCell key : String) : Act (Option DedupeHit) :=
  query fun st => (st.binding fromCell key).map (·.toDedupeHit)

def dedupeInsert (fromCell key messageId : String) (askId : Option String)
    (bodySha256 : String) : Act Unit := do
  let now ← nowRfc3339
  execute fun st => { st with
    dedupe := replaceInto (·.is fromCell key)
      ⟨⟨messageId, askId, bodySha256⟩, fromCell, key, now⟩ st.dedupe }

end Submissions

section Asks

def Store.ask (st : Store) (askId : String) : Option Ask := st.asks.find? (·.askId = askId)

def Store.updateAsk (st : Store) (askId : String) (f : Ask → Ask) : Store :=
  { st with asks := updateWhere (·.askId = askId) f st.asks }

def insertAsk (askId messageId fromCell toCell expiresAt : String) : Act Unit :=
  execute fun st => { st with
    asks := replaceInto (·.askId = askId)
      ⟨⟨askId, messageId, fromCell, toCell, expiresAt, .pending, none⟩, none⟩ st.asks }

def getAsk (askId : String) : Act (Option AskRow) :=
  query fun st => (st.ask askId).map (·.toAskRow)

inductive ReplyOutcome where
  | recorded
  | duplicateIdentical (messageId : String)
  | conflict

/-- Classify a candidate reply without committing the answer. -/
def replyPrecheck [Platform] (askId : String) (reply : Envelope) : Act ReplyOutcome := do
  match ← query (·.ask askId) with
  | none => pure .conflict
  | some ask =>
    if ask.state ≠ .pending then
      if ask.replyBodySha256 = some (Platform.sha256 reply.body) then
        pure (.duplicateIdentical (ask.replyMessageId.getD ""))
      else pure .conflict
    else pure .recorded

/-- Change one ask and record what became of it. -/
def settleAsk (askId : String) (reply : Option String) (f : Ask → Ask) : Act Unit := do
  mayFail
  Action.step fun w => ((), { w with
    store := w.store.updateAsk askId f
    history := .committed askId reply :: w.history })

def commitReply [Platform] (askId : String) (reply : Envelope) : Act Unit :=
  settleAsk askId (some reply.messageId) fun ask => { ask with
    state := .answered
    replyMessageId := some reply.messageId
    replyBodySha256 := some (Platform.sha256 reply.body) }

/-- `Store::record_reply`, check and commit in one; only tests of the source call it. -/
def recordReplyAtOnce [Platform] (askId : String) (reply : Envelope) : Act ReplyOutcome := do
  match ← replyPrecheck askId reply with
  | .recorded =>
    commitReply askId reply
    pure .recorded
  | other => pure other

def pendingAsksCount (requester : String) : Act Nat :=
  query fun st =>
    (st.asks.filter fun ask => ask.fromCell = requester && ask.state = .pending).length

def openAsksWhereResponder (cell : String) : Act Nat :=
  query fun st => (st.asks.filter fun ask => ask.toCell = cell && ask.state = .pending).length

def openAsksTotal : Act Nat :=
  query fun st => (st.asks.filter fun ask => ask.state = .pending).length

def expireAsksDue (nowRfc3339 : String) : Act (List String) := do
  let ids ← query fun st =>
    (st.asks.filter fun ask => ask.state = .pending && ask.expiresAt ≤ nowRfc3339).map (·.askId)
  ids.forM fun id => settleAsk id none fun ask => { ask with state := .expired }
  pure ids

end Asks
end Crewd.Bus
