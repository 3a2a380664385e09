import Crewd.Lib.System
import Crewd.Audit

/-! State of the daemon and its primitive statements. Any SQL statement and any
audit append may fail; what ran before the failure stays, because statements
outside a transaction commit one by one. -/
namespace Crewd
open Autocommit

/-- What the outside contributes to one critical section: clock readings in
milliseconds, the statements that fail with their error texts, and the rest. -/
structure Input (X : Type) where
  clock : List Nat
  faults : List (Option String)
  outside : X

/-- Tables and audit chain outlive the process, the memory does not. The history
records what happened for the statements about runs; no function reads it. -/
structure World (S M X K : Type) where
  store : S
  audit : List AuditEventDraft
  memory : M
  minted : Nat
  input : Input X
  history : List K

abbrev Act (S M X K α : Type) := Action (World S M X K) BusError α

variable {S M X K α : Type}

def World.install (w : World S M X K) (i : Input X) : World S M X K := { w with input := i }

/-- The same up to identifiers handed out and input consumed. -/
structure World.Quiet (w w' : World S M X K) : Prop where
  store : w'.store = w.store
  audit : w'.audit = w.audit
  memory : w'.memory = w.memory
  history : w'.history = w.history
  minted : w.minted ≤ w'.minted

theorem World.Quiet.rfl {w : World S M X K} : w.Quiet w :=
  ⟨.refl _, .refl _, .refl _, .refl _, Nat.le_refl _⟩

theorem World.quiet_install (w : World S M X K) (i : Input X) : w.Quiet (w.install i) :=
  ⟨.refl _, .refl _, .refl _, .refl _, Nat.le_refl _⟩

section Clock

/-- The next clock reading; a clock without further readings stands still. -/
def nowMs : Act S M X K Nat := Action.step fun w =>
  match w.input.clock with
  | [] => (0, w)
  | [now] => (now, w)
  | now :: later => (now, { w with input := { w.input with clock := later } })

/-- What the next clock reading will be. -/
def World.peekMs (w : World S M X K) : Nat := w.input.clock.headD 0

def nowUnix : Act S M X K Nat := do
  let ms ← nowMs
  pure (ms / 1000)

def nowRfc3339 : Act S M X K String := do
  let secs ← nowUnix
  pure (rfc3339FromUnixSecs secs)

def rfc3339After (secs : Nat) : Act S M X K String := do
  let base ← nowUnix
  pure (rfc3339FromUnixSecs (saturatingAdd base secs))

end Clock

def newUuidv7 [Platform] : Act S M X K String := Action.step fun w =>
  (Platform.uuid w.minted, { w with minted := w.minted + 1 })

/-- Whether the next statement fails, and how. -/
def nextFault : Act S M X K (Option String) := Action.step fun w =>
  match w.input.faults with
  | [] => (none, w)
  | fault :: later => (fault, { w with input := { w.input with faults := later } })

def World.failsNext (w : World S M X K) : Bool := (w.input.faults.headD none).isSome

/-- Whether a statement of the section is among those that fail. -/
def World.failing (w : World S M X K) : Bool := w.input.faults.any Option.isSome

def mayFail : Act S M X K Unit := do
  match ← nextFault with
  | none => pure ()
  | some text => throw (.internal text)

def readStore (f : S → α) : Act S M X K α := Action.step fun w => (f w.store, w)

def writeStore (f : S → S) : Act S M X K Unit := Action.step fun w => ((), { w with store := f w.store })

def readMemory (f : M → α) : Act S M X K α := Action.step fun w => (f w.memory, w)

def writeMemory (f : M → α × M) : Act S M X K α := Action.step fun w =>
  ((f w.memory).1, { w with memory := (f w.memory).2 })

def readOutside (f : X → α) : Act S M X K α := Action.step fun w => (f w.input.outside, w)

def record (mark : K) : Act S M X K Unit := Action.step fun w =>
  ((), { w with history := mark :: w.history })

/-- A `SELECT`. -/
def query (f : S → α) : Act S M X K α := do
  mayFail
  readStore f

/-- An `INSERT`, `UPDATE` or `DELETE`. -/
def execute (f : S → S) : Act S M X K Unit := do
  mayFail
  writeStore f

/-- An `INSERT` that fails where the key is taken. -/
def insertInto (taken : S → Bool) (constraint : String) (f : S → S) : Act S M X K Unit := do
  mayFail
  if ← readStore taken then throw (.internal s!"UNIQUE constraint failed: {constraint}")
  else writeStore f

/-- A body and its `COMMIT`. -/
def committing (body : Act S M X K α) : Act S M X K α := do
  let a ← body
  mayFail
  pure a

/-- An error inside rolls the tables back, not the audit chain. -/
def atomically (body : Act S M X K α) : Act S M X K α := ExceptT.mk fun w =>
  match body.exec w with
  | (.ok a, w') => (.ok a, w')
  | (.error e, w') => (.error e, { w' with store := w.store, history := w.history })

/-- `BEGIN … COMMIT`: an error inside, or of the commit, rolls back. -/
def transaction (body : Act S M X K α) : Act S M X K α := do
  mayFail
  atomically (committing body)

/-- `AuditChain::append`: the event is durable when this succeeds. -/
def append (draft : AuditEventDraft) : Act S M X K (Except String Unit) := do
  match assertKind draft.kind with
  | .error e => pure (.error e.display)
  | .ok () =>
    match ← nextFault with
    | some text => pure (.error text)
    | none => Action.step fun w => (.ok (), { w with audit := w.audit ++ [draft] })

/-- `DaemonState::audit`: append and fsync, fail-closed. -/
def audit (kind : String) (messageId fromCell toCell : Option String) (outcome : String)
    (detail : Option Json) : Act S M X K Unit := do
  match ← append ⟨kind, messageId, fromCell, toCell, outcome, detail⟩ with
  | .ok () => pure ()
  | .error e => throw (.internal s!"audit append/fsync failed: {e}")

/-- `DaemonState::audit_best_effort`: the outcome is discarded. -/
def auditBestEffort (kind : String) (messageId fromCell toCell : Option String)
    (outcome : String) (detail : Option Json) : Act S M X K Unit :=
  Action.ignore (audit kind messageId fromCell toCell outcome detail)

end Crewd
