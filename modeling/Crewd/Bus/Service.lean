import Crewd.Bus.Delivery

/-! The message bus as a service: every tool call is a thread, the delivery loop
runs beside them, other parts of the daemon append to the audit chain and draw
identifiers, and a crash loses the memory but not the store. -/
namespace Crewd.Bus
open Autocommit Concurrent

inductive Request where
  | send (caller : String) (params : Params SendParams)
  | ask (caller : String) (params : Params AskParams)
  | await (caller : String) (params : Params AwaitParams)
  | reply (caller : String) (params : Params ReplyParams)
  | inbox (caller : String) (params : Params InboxParams)
  | broadcast (caller : String) (params : Params BroadcastParams)
  | reportToolCorrelation (caller : String) (params : Params ReportCorrelationParams)
  | opStatus (caller : String) (keys : List String)

/-- What the rest of the daemon does to the shared state of the bus. -/
inductive Event where
  | audited (draft : AuditEventDraft)
  | minted

variable [Platform]

def handle (task : Nat) : Request → Handler Answer
  | .send caller params => handleSend caller params
  | .ask caller params => handleAsk caller params
  | .await caller params => handleAwait task caller params
  | .reply caller params => handleReply caller params
  | .inbox caller params => handleInbox caller params
  | .broadcast caller params => handleBroadcast caller params
  | .reportToolCorrelation caller params => handleReportToolCorrelation caller params
  | .opStatus caller keys => handleOpStatus caller keys

def happens : Event → World → Option World
  | .audited draft, w =>
    if draft.kind ∈ auditKinds then some { w with audit := w.audit ++ [draft] } else none
  | .minted, w => some { w with minted := w.minted + 1 }

/-- Nothing loaded. -/
def Start.none : Start := ⟨.empty, .default, [], ⟨30, 10, 1, 60⟩⟩

/-- The memory of a daemon that has just loaded its files. -/
def Start.memory (start : Start) : Memory where
  acl := start.acl
  quota := .new start.quota
  graph := .new
  adapters := start.adapters
  askWakers := []
  cfg := start.cfg

/-- A start fails when a file does not load; the memory of the process is lost
either way. -/
def restart (i : Input Outside) (w : World) : World × Bool :=
  let memory := (i.outside.start.getD .none).memory
  ({ w with
      memory := memory
      input := i
      history := .restarted :: w.history },
    i.outside.start.isSome)

def service : System World (Input Outside) Request Event (Except BusError Answer) where
  program task request := (handle task request).run
  loop := do
    let _ ← tick.run
    pure ()
  happens := happens
  restart := restart

end Crewd.Bus
