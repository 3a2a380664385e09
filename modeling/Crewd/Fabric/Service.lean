import Crewd.Fabric.Handlers

/-! The cell fabric as a service: every tool call is a thread, the scheduler ticks
beside them, engines emit events and die whenever they like, operators register
cells, and a crash is followed by boot recovery. -/
namespace Crewd.Fabric
open Autocommit Concurrent Table

inductive Request where
  | spawn (caller : String) (params : Params CellSpawnParams)
  | sendTask (caller : String) (params : Params CellSendTaskParams)
  | cancel (caller : String) (params : Params CellCancelParams)

/-- What engines, operators and the rest of the daemon do to the shared state. -/
inductive Event where
  | emitted (cell : String) (turn : Nat) (event : EngineEvent)
  | identified (cell sessionId : String)
  | died (cell : String)
  | cellRegistered (d : CellDef)
  | cellUpdated (d : CellDef)
  | audited (draft : AuditEventDraft)
  | minted

variable [Platform]

def handle (task : Nat) : Request → Handler Answer
  | .spawn caller params => handleSpawn task caller params
  | .sendTask caller params => handleSendTask caller params
  | .cancel caller params => handleCancel caller params

omit [Platform] in
/-- An engine reports on turns that it was asked to run, as long as it is alive. -/
def Scheduler.emits (s : Scheduler) (cell : String) (turn : Nat) : Bool :=
  (s.engine cell).any fun e => e.up ∧ turn ∈ e.started

omit [Platform] in
/-- The event ended the turn that it was taken for. -/
def Mark.ends (turn : Nat) : Mark → Bool
  | .polled number _ event => number = turn ∧ event.terminal
  | _ => false

omit [Platform] in
/-- A turn of the cell is in flight, and nothing ends it that its adapter holds or that was
taken from there for it. -/
def working (cell : String) (w : World) : Bool :=
  w.memory.scheduler.inFlight.any fun (_, turn) => turn.cell = cell ∧
    ((w.memory.scheduler.engine cell).all fun e => e.outbox.all fun event => !event.2.terminal) ∧
    w.history.all fun mark => !mark.ends turn.turn

omit [Platform] in
/-- The engine of the cell has no turn to run. -/
def idle (cell : String) (w : World) : Bool :=
  (w.memory.scheduler.engine cell).isSome && !working cell w

omit [Platform] in
def cellAudited (kind : String) (d : CellDef) : AuditEventDraft :=
  ⟨kind, none, some d.name, none, "ok", some (.obj [("engine", .str d.engine.asStr),
    ("cwd", .str d.cwd), ("worktree_default", .bool d.worktreeDefault)])⟩

omit [Platform] in
def happens : Event → World → Option World
  | .emitted cell turn event, w =>
    if w.memory.scheduler.emits cell turn then
      some { w with
        memory := w.memory.schedule (·.updateEngine cell fun e =>
          { e with outbox := e.outbox ++ [(turn, event)] })
        history := .emitted turn event :: w.history }
    else none
  | .identified cell sessionId, w =>
    if (w.memory.scheduler.engine cell).any fun e => e.kind = .claude ∨ e.kind = .fake then
      some { w with memory := w.memory.schedule (·.updateEngine cell fun e =>
        { e with engineSessionId := some sessionId }) }
    else none
  | .died cell, w =>
    some { w with
      memory := w.memory.schedule (·.updateEngine cell fun e => { e with up := false })
      history := .died cell (idle cell w) :: w.history }
  | .cellRegistered d, w =>
    if (validateCellName d.name).isOk ∧ !w.store.cells.any (·.name = d.name) then
      some { w with
        store := { w.store with cells := w.store.cells ++ [d] }
        audit := w.audit ++ [cellAudited "cell_registered" d] }
    else none
  | .cellUpdated d, w =>
    if w.store.cells.any (·.name = d.name) then
      some { w with
        store := { w.store with cells := updateWhere (·.name = d.name) (fun _ => d) w.store.cells }
        audit := w.audit ++ [cellAudited "cell_updated" d] }
    else none
  | .audited draft, w =>
    if draft.kind ∈ auditKinds then some { w with audit := w.audit ++ [draft] } else none
  | .minted, w => some { w with minted := w.minted + 1 }

/-- The memory of a daemon that has just started. -/
def Memory.new (acl : Acl) : Memory := ⟨acl, .new, []⟩

/-- Boot recovery comes before anything is served; a start fails when it fails or
when the ACL does not load. The memory of the process is lost either way. -/
def restart (i : Input Outside) (w : World) : World × Bool :=
  let fresh : World := { w.install i with
    memory := .new (i.outside.start.getD .empty), history := .restarted :: w.history }
  let (recovered, w') := bootRecovery.exec fresh
  (w', recovered.isOk && i.outside.start.isSome)

def service : System World (Input Outside) Request Event (Except BusError Answer) where
  program task request := (handle task request).run
  loop := do
    let _ ← tick.run
    pure ()
  happens := happens
  restart := restart

end Crewd.Fabric
