import Crewd.Bus.Exchange

/-! The delivery loop: expire asks and deliveries past their TTL, claim due
deliveries, drive the adapters of their recipients, and apply the outcomes. -/
namespace Crewd.Bus
open Autocommit Concurrent

def bestEffort (kind : String) (messageId toCell : Option String) (outcome : String)
    (detail : Option Json) : Handler Unit :=
  locked (auditBestEffort kind messageId none toCell outcome detail)

def outcomeToState : DeliveryOutcome → DeliveryState
  | .delivered => .delivered
  | .acked => .acked
  | .transientFailure | .notReady => .queued
  | .permanentFailure => .failed

/-- The outcome of the recipient's adapter; without an adapter the message waits
for an inbox pull. -/
def deliverWithTimeout (installed : Bool) (messageId recipient : String) :
    Handler DeliveryOutcome :=
  if installed then locked do
    note fun _ => .offered messageId recipient
    readOutside (·.outcome)
  else pure .notReady

/-- Note the row an outcome is applied to, and whether one of the two statements
that apply it is going to fail. -/
def noteOutcome (messageId recipient : String) (outcome : DeliveryOutcome) : Act Unit :=
  note fun w => .applying messageId recipient outcome (w.store.delivery messageId recipient)
    w.memory.cfg.maxAttempts ((w.input.faults.take 2).any Option.isSome)

def applyTransition (messageId recipient : String) (outcome : DeliveryOutcome) : Act Unit := do
  noteOutcome messageId recipient outcome
  Action.ignore (transition messageId recipient (outcomeToState outcome))

def applyFailure (messageId recipient : String) : Act (Except BusError Bool) := do
  noteOutcome messageId recipient .transientFailure
  let cfg ← readMemory (·.cfg)
  (recordAttemptFailure messageId recipient cfg.maxAttempts cfg.backoffBaseSecs
    cfg.backoffCapSecs).outcome

/-- The event of an applied outcome, when it reaches the chain. -/
def announce (kind messageId recipient outcome : String) : Handler Unit := locked do
  match ← (audit kind (some messageId) none (some recipient) outcome none).outcome with
  | .ok () => note fun _ => .announced kind messageId recipient
  | .error _ => pure ()

def applyOutcome (messageId recipient : String) (outcome : DeliveryOutcome) :
    Handler Unit := do
  match outcome with
  | .delivered | .acked =>
    locked (applyTransition messageId recipient outcome)
    announce "delivered" messageId recipient "ok"
  | .permanentFailure =>
    locked (applyTransition messageId recipient outcome)
    announce "delivery_failed" messageId recipient "failed"
  | .transientFailure =>
    match ← locked (applyFailure messageId recipient) with
    | .ok true => announce "delivery_failed" messageId recipient "failed"
    | _ => pure ()
  | .notReady => locked (noteOutcome messageId recipient .notReady)

def deliver (adapters : List String) (claimed : Envelope × String) : Handler Unit := do
  let outcome ← deliverWithTimeout (adapters.contains claimed.2) claimed.1.messageId claimed.2
  applyOutcome claimed.1.messageId claimed.2 outcome

def announceExpiredAsk (askId : String) : Handler Unit := do
  bestEffort "ask_expired" none none "expired" (some (.obj [("ask_id", .str askId)]))
  locked (notifyAsker askId)

def tick : Handler Unit := do
  let (nowRfc, nowUnix) ← locked do
    let nowRfc ← nowRfc3339
    let nowUnix ← nowUnix
    pure (nowRfc, nowUnix)
  let expiredAsks ← locked (expireAsksDue nowRfc)
  expiredAsks.forM announceExpiredAsk
  let expired ← locked (expireDue nowRfc)
  expired.forM fun (messageId, recipient) =>
    bestEffort "expired" (some messageId) (some recipient) "expired" none
  let claimed ← locked do
    let cfg ← readMemory (·.cfg)
    claimDue nowUnix (asI64 cfg.leaseSecs) 50
  let adapters ← locked (readMemory (·.adapters))
  claimed.forM (deliver adapters)

end Crewd.Bus
