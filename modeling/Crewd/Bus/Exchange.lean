import Crewd.Bus.Outbound

/-! The tools around an existing message: `cell_await` with its waker and
deadline, `cell_reply`, `cell_inbox`, and the reports that only read. -/
namespace Crewd.Bus
open Autocommit Concurrent

structure AwaitParams where
  askId : String

structure ReplyParams where
  askId : String
  body : String
  fileRefs : List String
  idempotencyKey : Option String

structure InboxParams where
  limit : Option Nat

structure ReportCorrelationParams where
  messageId : String
  tool : String
  highRisk : Bool
  outcome : String

section Wakers

def Notify.new : Notify := ⟨false, [], []⟩

/-- Wake the oldest waiter, or store the one permit. -/
def Notify.notifyOne (n : Notify) : Notify :=
  match n.waiting with
  | [] => { n with permit := true }
  | oldest :: later => { n with waiting := later, notified := n.notified ++ [oldest] }

/-- First poll: take a stored permit, or queue up. -/
def Notify.poll (task : Nat) (n : Notify) : Bool × Notify :=
  if n.permit then (true, { n with permit := false })
  else (false, { n with waiting := n.waiting ++ [task] })

/-- A later poll of a queued waiter; dropped at the deadline when not notified. -/
def Notify.pollAgain (task : Nat) (n : Notify) : Bool × Notify :=
  if task ∈ n.notified then (true, { n with notified := n.notified.erase task })
  else (false, { n with waiting := n.waiting.erase task })

def Memory.waker (m : Memory) (askId : String) : Option Notify := m.askWakers.lookup askId

def Memory.setWaker (m : Memory) (askId : String) (n : Notify) : Memory :=
  { m with askWakers := (askId, n) :: m.askWakers.filter fun entry => entry.1 ≠ askId }

/-- The entry of the ask, made on first use and never removed. -/
def Memory.wakerOrNew (m : Memory) (askId : String) : Notify := (m.waker askId).getD .new

def registerWaker (task : Nat) (askId : String) : Act Unit := Action.step fun w =>
  let notify := w.memory.wakerOrNew askId
  ((), { w with
    memory := w.memory.setWaker askId notify
    history := .registered task askId notify.permit :: w.history })

def pollWaker (task : Nat) (askId : String) : Act Bool := Action.step fun w =>
  match (w.memory.wakerOrNew askId).poll task with
  | (true, notify) => (true, { w with
      memory := w.memory.setWaker askId notify, history := .woke task askId :: w.history })
  | (false, notify) => (false, { w with memory := w.memory.setWaker askId notify })

def pollWakerAgain (task : Nat) (askId : String) (w : World) : Bool × World :=
  match (w.memory.wakerOrNew askId).pollAgain task with
  | (true, notify) => (true, { w with
      memory := w.memory.setWaker askId notify, history := .woke task askId :: w.history })
  | (false, notify) => (false, { w with
      memory := w.memory.setWaker askId notify, history := .slept task askId :: w.history })

/-- Runs when the waiter was notified or its deadline has passed; a notification
is looked at first. -/
def wakeOrDeadline (task : Nat) (askId : String) : Handler Bool :=
  ExceptT.mk do
    let woken ← Process.waiting
      (fun i w => i.outside.deadline ||
        (w.memory.wakerOrNew askId).notified.contains task)
      (fun i w => pollWakerAgain task askId (w.install i))
    pure (.ok woken)

/-- `timeout(notified)`: whether the wait ended with a notification. -/
def awaitNotified (task : Nat) (askId : String) : Handler Bool := do
  if ← locked (pollWaker task askId) then pure true
  else wakeOrDeadline task askId

def notifyAsker (askId : String) : Act Unit := Action.step fun w =>
  match w.memory.waker askId with
  | some notify => ((), { w with
      memory := w.memory.setWaker askId notify.notifyOne
      history := .notified askId :: w.history })
  | none => ((), { w with history := .notified askId :: w.history })

end Wakers

section Await

/-- Note that a reply is read, and whether the statement fails. -/
def noteFetch (task : Nat) (messageId : String) : Act Unit := Action.step fun w =>
  ((), { w with history := .fetching task messageId w.failsNext :: w.history })

/-- The full reply envelope, or a stub when its row cannot be read. -/
def answered (task : Nat) (ask : AskRow) : Handler Answer := do
  let stub : Answer := .answeredStub ask.replyMessageId ask.askId
  match ask.replyMessageId with
  | none => pure stub
  | some messageId => locked do
    noteFetch task messageId
    match ← (getEnvelope messageId).outcome with
    | .ok (some env) => pure (.answered env)
    | _ => pure stub

def activateAwait (waiter target : String) : Act (Except BusError AwaitGuard) :=
  writeMemory fun m =>
    let (r, graph) := m.graph.tryActivateAwait waiter target
    (r, { m with graph := graph })

def releaseAwait (guard : AwaitGuard) : Act Unit :=
  writeMemory fun m => ((), { m with graph := m.graph.release guard })

/-- The edge is released however the body ends. -/
def guarded {α : Type} (guard : AwaitGuard) (body : Handler α) : Handler α := ExceptT.mk do
  let r ← body.run
  let _ ← (locked (releaseAwait guard) : Handler Unit).run
  pure r

def readAgain (task : Nat) (ask : AskRow) : Act AskRow := do
  record (.resumed task ask.askId)
  let row ← getAsk ask.askId
  let ask2 := row.getD ask
  record (.reread task ask2)
  pure ask2

def firstRead (task : Nat) (askId : String) : Act AskRow := do
  match ← getAsk askId with
  | none => throw (.askNotFound s!"ask {askId} not found")
  | some ask => do
    record (.firstRead task ask)
    pure ask

def waitForReply (task : Nat) (ask : AskRow) : Handler Answer := do
  locked (registerWaker task ask.askId)
  let woken ← awaitNotified task ask.askId
  let ask2 ← locked (readAgain task ask)
  if woken then
    match ask2.state with
    | .answered => answered task ask2
    | .expired => pure .expired
    | .pending => pure .pending
  else pure .pending

def handleAwait (task : Nat) (caller : String) (params : Params AwaitParams) :
    Handler Answer := do
  raise (rejectClientIdentityKeys params.keys ["ask_id"])
  let p ← raise (parseParams params)
  let ask ← locked (firstRead task p.askId)
  if ask.fromCell ≠ caller then throw (.askNotFound "await by non-asker")
  else match ask.state with
    | .answered => answered task ask
    | .expired => pure .expired
    | .pending =>
      match ← locked (activateAwait caller ask.toCell) with
      | .error e => refuse "deadlock_prevented" caller (some ask.toCell) "rejected" e
      | .ok guard => guarded guard (waitForReply task ask)

end Await

section Reply
variable [Platform]

def findAsk (askId : String) : Act AskRow := do
  match ← getAsk askId with
  | none => throw (.askNotFound s!"ask {askId} not found")
  | some ask => pure ask

/-- The reply is audited before the ask becomes answered. -/
def recordReply (askId : String) (env : Envelope) (caller asker : String) : Act Unit := do
  insertEnvelope env
  auditEnqueued env.messageId caller asker
  commitReply askId env
  insertDelivery env.messageId asker

/-- Classify the reply, and write it when it is the first. -/
def submitReply (caller : String) (p : ReplyParams) (ask : AskRow) :
    Act (ReplyOutcome × String) := do
  let key ← keyOrNew p.idempotencyKey
  let seq ← nextSeq caller ask.fromCell
  let env ← buildEnvelopeWithCaps {
    kind := .reply, msgType := .reply, fromCell := caller, toCell := some ask.fromCell,
    body := p.body, fileRefs := p.fileRefs, askId := some p.askId,
    replyTo := some ask.messageId, idempotencyKey := key, ttlSecs := clampTtl .reply none,
    seq := seq }
  match ← replyPrecheck p.askId env with
  | .recorded => do
    recordReply p.askId env caller ask.fromCell
    pure (.recorded, env.messageId)
  | outcome => pure (outcome, env.messageId)

def handleReply (caller : String) (params : Params ReplyParams) : Handler Answer := do
  raise (rejectClientIdentityKeys params.keys ["ask_id"])
  let p ← raise (parseParams params)
  raise (checkIdem (p.idempotencyKey.getD ""))
  raise (checkBody p.body)
  checkAttachFiles caller p.fileRefs
  checkCapability caller .reply
  let ask ← locked (findAsk p.askId)
  if ask.toCell ≠ caller then throw (.askNotFound "reply by non-responder")
  else match ← locked (submitReply caller p ask) with
    | (.recorded, messageId) => do
      locked (notifyAsker p.askId)
      pure (.recorded messageId)
    | (.duplicateIdentical messageId, _) => pure (.duplicate messageId)
    | (.conflict, _) =>
      refuse "duplicate_reply" caller (some ask.fromCell) "dropped"
        (.replyExists s!"differing reply for {p.askId}")

end Reply

section Reading

def handleInbox (caller : String) (params : Params InboxParams) : Handler Answer := do
  raise (rejectClientIdentityKeys params.keys [])
  let p ← raise (parseParams params)
  checkCapability caller .readInbox
  let (messages, more) ← locked (inbox caller (min (p.limit.getD 50) 200))
  pure (.messages messages more)

/-- Whether the caller has consumed the message; a failing lookup says no. -/
def hasConsumed (messageId recipient : String) : Act Bool := do
  match ← (deliveryState messageId recipient).outcome with
  | .ok state => pure (state = .delivered ∨ state = .acked)
  | .error _ => pure false

def causalDetail (p : ReportCorrelationParams) (msgType : MsgType) : Json := .obj [
  ("causal", .bool true), ("message_id", .str p.messageId), ("tool", .str p.tool),
  ("high_risk", .bool p.highRisk), ("outcome", .str p.outcome), ("msg_type", .str msgType.asStr)]

def handleReportToolCorrelation (caller : String) (params : Params ReportCorrelationParams) :
    Handler Answer := do
  raise (rejectClientIdentityKeys params.keys ["message_id"])
  let p ← raise (parseParams params)
  if ← locked (hasConsumed p.messageId caller) then
    match ← locked (getEnvelope p.messageId) with
    | none => throw (.internal "envelope vanished")
    | some env =>
      locked (audit "acked" (some p.messageId) (some caller) none "ok"
        (some (causalDetail p env.msgType)))
      pure .correlated
  else throw (.aclDenied
    s!"{caller} has not consumed {p.messageId} (delivery not in delivered/acked)")

def handleOpStatus (caller : String) (keys : List String) : Handler Answer := do
  raise (rejectClientIdentityKeys keys [])
  checkCapability caller .readAudit
  let (pending, openAsks) ← locked do
    let pending ← pendingDeliveriesTotal
    let openAsks ← openAsksTotal
    pure (pending, openAsks)
  pure (.status pending openAsks)

end Reading
end Crewd.Bus
