import Crewd.Fabric.Soundness

/-! The registry of the fabric: registered cells, spawn requests and worktrees. The
operations that change it announce each change in the audit chain before they write. -/
namespace Crewd.Fabric
open Autocommit Table

section Paths

/-- The components of a path: repeated separators and `.` count only at its start. -/
def pathComponents (path : String) : List (List Char) :=
  match path.toList.splitOn '/' with
  | [] => []
  | first :: rest => [first].filter (· ≠ []) ++ rest.filter fun part => part ≠ [] ∧ part ≠ ['.']

/-- `Path::file_name` -/
def fileName (path : String) : Option String :=
  match (pathComponents path).getLast? with
  | none => none
  | some name => if name = ['.'] ∨ name = ['.', '.'] then none else some (String.ofList name)

/-- `Path::parent` of a path with a file name. -/
def parentPath (path : String) : String :=
  let root := if ['/'] <+: path.toList then "/" else ""
  root ++ "/".intercalate ((pathComponents path).dropLast.map String.ofList)

/-- `Path::join` of a file name. -/
def joinPath (parent name : String) : String :=
  if parent = "" ∨ parent.toList.getLast? = some '/' then parent ++ name else parent ++ "/" ++ name

/-- The parent must exist; `canonicalize` is what the file system says of it. -/
def canonicalWorktreePath (canonicalize : String → Except String String) (path : String) :
    Except BusError String :=
  match fileName path with
  | none => .error (.internal s!"worktree path has no basename: {path}")
  | some name =>
    let parent := parentPath path
    if parent = "" then .error (.internal s!"worktree path has no parent: {path}")
    else
      match canonicalize parent with
      | .error e => .error (.internal s!"worktree parent not canonicalizable ({path}): {e}")
      | .ok canonical => .ok (joinPath canonical name)

example : parentPath "work//./trees/t1" = "work/trees" ∧ fileName "work//./trees/t1/." = some "t1" := by
  decide

end Paths

section Operations

/-- Whether a row is found; a failing lookup says no. -/
def present (f : Store → Bool) : Act Bool := do
  match ← (query f).outcome with
  | .ok found => pure found
  | .error _ => pure false

/-- The event of a change, appended before it. -/
def announce (event : AuditEventDraft) : Act Unit := do
  match ← append event with
  | .ok () => pure ()
  | .error e => throw (.internal s!"audit {event.kind}: {e}")

def cellRegister (d : CellDef) : Act Unit := do
  Action.ofExcept (validateCellName d.name)
  if ← present (·.cells.any (·.name = d.name)) then
    throw (.internal s!"cell already exists: {d.name}")
  else
    announce (cellAudited "cell_registered" d)
    insertInto (·.cells.any (·.name = d.name)) "cells.name" fun st =>
      { st with cells := st.cells ++ [d] }

def cellUpdate (d : CellDef) : Act Unit := do
  Action.ofExcept (validateCellName d.name)
  if ← present (·.cells.any (·.name = d.name)) then
    announce (cellAudited "cell_updated" d)
    execute fun st => { st with cells := updateWhere (·.name = d.name) (fun _ => d) st.cells }
  else throw (.unknownCell s!"cell not found: {d.name}")

def worktreeCreated (path threadId : String) : AuditEventDraft :=
  ⟨"worktree_created", none, some threadId, none, "ok",
    some (.obj [("path", .str path), ("thread", .str threadId)])⟩

def worktreeCleanup (path : String) : AuditEventDraft :=
  ⟨"worktree_cleanup", none, none, none, "ok", some (.obj [("path", .str path)])⟩

def worktreeRecord (canonicalize : String → Except String String) (path threadId : String) :
    Act Unit := do
  let canon ← Action.ofExcept (canonicalWorktreePath canonicalize path)
  if ← present (·.threads.any (·.crewdThreadId = threadId)) then
    announce (worktreeCreated canon threadId)
    let now ← nowRfc3339
    insertInto (·.worktrees.any (·.canonicalPath = canon)) "worktrees.canonical_path" fun st =>
      { st with worktrees := st.worktrees ++ [⟨canon, threadId, .created, now⟩] }
  else throw (.internal s!"worktree owner thread not found: {threadId}")

def Worktree.requestCleanup (tree : Worktree) : Worktree := { tree with state := .cleanupRequested }

def worktreeMarkCleanup (canonicalize : String → Except String String) (path : String) :
    Act Unit := do
  let canon ← Action.ofExcept (canonicalWorktreePath canonicalize path)
  if ← present (·.worktrees.any (·.canonicalPath = canon)) then
    announce (worktreeCleanup canon)
    execute fun st => { st with
      worktrees := updateWhere (·.canonicalPath = canon) Worktree.requestCleanup st.worktrees }
  else throw (.internal s!"worktree not found: {canon}")

/-- The operations on the registry with their arguments. -/
inductive RegistryOp where
  | cellRegister (d : CellDef)
  | cellUpdate (d : CellDef)
  | spawnIdempotent (caller cellName idempotencyKey payload : String) (launch : Launch)
    (depthCap : Nat)
  | worktreeRecord (canonicalize : String → Except String String) (path threadId : String)
  | worktreeMarkCleanup (canonicalize : String → Except String String) (path : String)

def RegistryOp.run [Platform] : RegistryOp → Act Unit
  | .cellRegister d => Fabric.cellRegister d
  | .cellUpdate d => Fabric.cellUpdate d
  | .spawnIdempotent caller cellName key payload launch depthCap =>
    Action.ignore (Fabric.spawnIdempotent caller cellName key payload launch depthCap)
  | .worktreeRecord canonicalize path threadId => Fabric.worktreeRecord canonicalize path threadId
  | .worktreeMarkCleanup canonicalize path => Fabric.worktreeMarkCleanup canonicalize path

end Operations

section Announcing

/-- The tables that operators and spawns change. -/
structure Registry where
  cells : List CellDef
  spawnRequests : List SpawnRow
  worktrees : List Worktree

def Store.registry (st : Store) : Registry := ⟨st.cells, st.spawnRequests, st.worktrees⟩

def spawnRequested (caller cellName idempotencyKey : String) (engine : EngineKind) :
    AuditEventDraft :=
  ⟨"cell_spawn_requested", none, some caller, some cellName, "ok",
    some (.obj [("caller", .str caller), ("cell", .str cellName),
      ("idempotency_key", .str idempotencyKey), ("engine", .str engine.asStr)])⟩

/-- The change of the registry that an event announces. -/
inductive Announces : AuditEventDraft → Registry → Registry → Prop where
  | registered (r : Registry) (d : CellDef) : (∀ known ∈ r.cells, known.name ≠ d.name) →
      Announces (cellAudited "cell_registered" d) r { r with cells := r.cells ++ [d] }
  | updated (r : Registry) (d : CellDef) : Announces (cellAudited "cell_updated" d) r
      { r with cells := updateWhere (·.name = d.name) (fun _ => d) r.cells }
  | spawned (r : Registry) (row : SpawnRow) (engine : EngineKind) :
      Announces (spawnRequested row.caller row.cellName row.idempotencyKey engine) r
        { r with spawnRequests := r.spawnRequests ++ [row] }
  | recorded (r : Registry) (tree : Worktree) : tree.state = .created →
      (∀ known ∈ r.worktrees, known.canonicalPath ≠ tree.canonicalPath) →
      Announces (worktreeCreated tree.canonicalPath tree.createdByThread) r
        { r with worktrees := r.worktrees ++ [tree] }
  | cleanup (r : Registry) (path : String) : Announces (worktreeCleanup path) r
      { r with worktrees := updateWhere (·.canonicalPath = path) Worktree.requestCleanup r.worktrees }

/-- One step of an operation begun in `s`: nothing is written, the event is appended, or
the announced change is written after the event. -/
inductive Orderly (s : World) (event : AuditEventDraft) (w w' : World) : Prop where
  | aside : w'.store = w.store → w'.audit = w.audit → Orderly s event w w'
  | announced : w.store = s.store → w.audit = s.audit → w'.store = w.store →
      w'.audit = w.audit ++ [event] → Orderly s event w w'
  | written : w.store = s.store → w.audit = s.audit ++ [event] → w'.audit = w.audit →
      Announces event w.store.registry w'.store.registry → Orderly s event w w'

/-- What an operation does to tables and chain: each change has an event of its own, which
precedes it, and without an event nothing has changed. -/
structure ChangesAnnounced (s t : World) (event : AuditEventDraft) : Prop where
  steps : Relation.ReflTransGen (Orderly s event) s t
  chain : t.audit = s.audit ∧ t.store = s.store ∨ t.audit = s.audit ++ [event] ∧
    (t.store = s.store ∨ Announces event s.store.registry t.store.registry)

/-- A run of the registry: its operations, and what else the daemon does meanwhile with
other tables and further events. -/
inductive RegistryStep [Platform] : World → World → Prop where
  | call (op : RegistryOp) (i : Input Outside) (w : World) :
      RegistryStep w (op.run.exec (w.install i)).2
  | meanwhile (w w' : World) : w'.store.registry = w.store.registry → w.audit <+: w'.audit →
      RegistryStep w w'

/-- Each row of the registry has its event in the chain. -/
structure RowsAnnounced (r : Registry) (chain : List AuditEventDraft) : Prop where
  cells : ∀ d ∈ r.cells, (∃ first, first.name = d.name ∧ cellAudited "cell_registered" first ∈ chain) ∧
    (cellAudited "cell_registered" d ∈ chain ∨ cellAudited "cell_updated" d ∈ chain)
  spawnRequests : ∀ row ∈ r.spawnRequests, ∃ engine,
    spawnRequested row.caller row.cellName row.idempotencyKey engine ∈ chain
  worktrees : ∀ tree ∈ r.worktrees,
    worktreeCreated tree.canonicalPath tree.createdByThread ∈ chain ∧
    (tree.state = .cleanupRequested → worktreeCleanup tree.canonicalPath ∈ chain)

end Announcing

section Steps

variable {s t : World} {event : AuditEventDraft}

theorem Orderly.ofQuiet (w w' : World) (same : w.Quiet w') : Orderly s event w w' :=
  .aside same.store same.audit

/-- At most one event is appended, and at most one change is written after it. -/
theorem changes_of_steps (steps : Relation.ReflTransGen (Orderly s event) s t) :
    ChangesAnnounced s t event := by
  refine ⟨steps, ?_⟩
  induction steps with
  | refl => exact .inl ⟨rfl, rfl⟩
  | tail _ last ih =>
    cases last with
    | aside store audit =>
      rw [store, audit]
      exact ih
    | announced store audit kept appended =>
      right
      rw [appended, audit, kept]
      exact ⟨rfl, .inl store⟩
    | written store audit kept announces =>
      right
      rw [kept, ← store]
      exact ⟨audit, .inr announces⟩

theorem present_silent (f : Store → Bool) : Silent (present f) := by
  refine .bind (.outcome (.query f)) fun r => ?_
  cases r with
  | ok found => exact .pure _
  | error e => exact .pure _

theorem announce_meets : Meets (Orderly s event) (·.At s.snapshot) (announce event)
    (fun _ w => w.At { s.snapshot with audit := s.audit ++ [event] }) := by
  refine (meets_append Orderly.ofQuiet fun w here => ?_).bind fun r => ?_
  · exact .announced here.store here.audit rfl rfl
  · cases r with
    | ok u => exact Meets.pure fun w here => here.1 rfl
    | error e => exact Meets.throw

/-- The write that the event has announced. -/
theorem written_of_at {w : World} {st : Store}
    (here : w.At { s.snapshot with audit := s.audit ++ [event] })
    (announces : Announces event s.store.registry st.registry) :
    Orderly s event w { w with store := st } := by
  have store : w.store = s.store := here.store
  refine .written store here.audit rfl ?_
  rw [store]
  exact announces

theorem cellRegister_meets (d : CellDef) :
    Meets (Orderly s (cellAudited "cell_registered" d)) (·.At s.snapshot) (cellRegister d)
      (fun _ _ => True) := by
  refine Meets.bind (Q := fun _ w => w.At s.snapshot) (.ofExcept fun _ _ _ here => here) fun _ => ?_
  refine ((present_silent _).meets Orderly.ofQuiet).bind fun found => ?_
  refine Meets.ite (fun _ => Meets.throw) fun _ => announce_meets.bind fun _ => ?_
  refine (meets_insertInto Orderly.ofQuiet fun w here free => ?_).weaken (fun _ here => here)
    fun _ _ _ => trivial
  apply written_of_at here
  rw [show w.store = s.store from here.store]
  exact .registered s.store.registry d (by simpa [World.snapshot, Store.registry] using free)

theorem cellUpdate_meets (d : CellDef) :
    Meets (Orderly s (cellAudited "cell_updated" d)) (·.At s.snapshot) (cellUpdate d)
      (fun _ _ => True) := by
  refine Meets.bind (Q := fun _ w => w.At s.snapshot) (.ofExcept fun _ _ _ here => here) fun _ => ?_
  refine ((present_silent _).meets Orderly.ofQuiet).bind fun found => ?_
  refine Meets.ite (fun _ => announce_meets.bind fun _ => ?_) fun _ => Meets.throw
  refine (meets_execute Orderly.ofQuiet fun w here => ?_).weaken (fun _ here => here)
    fun _ _ _ => trivial
  apply written_of_at here
  rw [show w.store = s.store from here.store]
  exact .updated s.store.registry d

theorem worktreeRecord_meets (canonicalize : String → Except String String)
    (path threadId : String) : ∃ event, Meets (Orderly s event) (·.At s.snapshot)
      (worktreeRecord canonicalize path threadId) (fun _ _ => True) := by
  unfold worktreeRecord
  cases canonicalWorktreePath canonicalize path with
  | error e => exact ⟨worktreeCleanup "", Meets.throw⟩
  | ok canon =>
    refine ⟨worktreeCreated canon threadId, ?_⟩
    refine ((present_silent _).meets Orderly.ofQuiet).bind fun found => ?_
    refine Meets.ite (fun _ => announce_meets.bind fun _ => ?_) fun _ => Meets.throw
    refine (Silent.nowRfc3339.meets Orderly.ofQuiet).bind fun time => ?_
    refine (meets_insertInto Orderly.ofQuiet fun w here free => ?_).weaken (fun _ here => here)
      fun _ _ _ => trivial
    apply written_of_at here
    rw [show w.store = s.store from here.store]
    exact .recorded s.store.registry ⟨canon, threadId, .created, time⟩ rfl
      (by simpa [World.snapshot, Store.registry] using free)

theorem worktreeMarkCleanup_meets (canonicalize : String → Except String String) (path : String) :
    ∃ event, Meets (Orderly s event) (·.At s.snapshot) (worktreeMarkCleanup canonicalize path)
      (fun _ _ => True) := by
  unfold worktreeMarkCleanup
  cases canonicalWorktreePath canonicalize path with
  | error e => exact ⟨worktreeCleanup "", Meets.throw⟩
  | ok canon =>
    refine ⟨worktreeCleanup canon, ?_⟩
    refine ((present_silent _).meets Orderly.ofQuiet).bind fun found => ?_
    refine Meets.ite (fun _ => announce_meets.bind fun _ => ?_) fun _ => Meets.throw
    refine (meets_execute Orderly.ofQuiet fun w here => ?_).weaken (fun _ here => here)
      fun _ _ _ => trivial
    apply written_of_at here
    rw [show w.store = s.store from here.store]
    exact .cleanup s.store.registry canon

/-- Inside the transaction of a spawn only its event is appended. -/
def Appends (s : World) (event : AuditEventDraft) (w w' : World) : Prop :=
  (w.audit = s.audit ∨ w.audit = s.audit ++ [event]) →
    w'.audit = s.audit ∨ w'.audit = s.audit ++ [event]

def Holds (chain : List AuditEventDraft) (r : Registry) (w : World) : Prop :=
  w.audit = chain ∧ w.store.registry = r

variable {chain : List AuditEventDraft} {r : Registry} {α : Type}

theorem Appends.same {w w' : World} (audit : w'.audit = w.audit) : Appends s event w w' := by
  intro before
  rw [audit]
  exact before

theorem Appends.ofQuiet (w w' : World) (same : w.Quiet w') : Appends s event w w' :=
  .same same.audit

theorem Appends.path {w w' : World} (path : Relation.ReflTransGen (Appends s event) w w')
    (before : w.audit = s.audit) : w'.audit = s.audit ∨ w'.audit = s.audit ++ [event] := by
  induction path with
  | refl => exact .inl before
  | tail _ last ih => exact last ih

theorem holds_silent {m : Act α} (silent : Silent m) :
    Meets (Appends s event) (Holds chain r) m (fun _ => Holds chain r) := by
  intro w ⟨audit, registry⟩
  have quiet := silent w
  refine ⟨.single (.ofQuiet _ _ quiet), fun _ _ => ⟨quiet.audit.trans audit, ?_⟩⟩
  rw [quiet.store, registry]

/-- A statement on the other tables. -/
theorem holds_execute {f : Store → Store} (keeps : ∀ st, (f st).registry = st.registry) :
    Meets (Appends s event) (Holds chain r) (execute f) (fun _ => Holds chain r) := by
  refine (holds_silent .mayFail).bind fun _ => Meets.step (fun w _ => .same rfl) fun w held => ?_
  exact ⟨held.1, (keeps w.store).trans held.2⟩

theorem holds_insertInto {taken : Store → Bool} {constraint : String} {f : Store → Store}
    {changed : Registry} (change : ∀ st, st.registry = r → (f st).registry = changed) :
    Meets (Appends s event) (Holds chain r) (insertInto taken constraint f)
      (fun _ => Holds chain changed) := by
  refine (holds_silent .mayFail).bind fun _ => (holds_silent (.readStore _)).bind fun found => ?_
  refine Meets.ite (fun _ => Meets.throw) fun _ => Meets.step (fun w _ => .same rfl) fun w held => ?_
  exact ⟨held.1, change w.store held.2⟩

theorem jobEnqueueInner_holds [Platform] (threadId cell payload : String) (depthCap : Nat) :
    Meets (Appends s event) (Holds chain r) (jobEnqueueInner threadId cell payload depthCap)
      (fun _ => Holds chain r) := by
  refine (holds_silent (.query _)).bind fun count => Meets.ite (fun _ => Meets.throw) fun _ => ?_
  refine (holds_silent (.query _)).bind fun next => (holds_silent .newUuidv7).bind fun id => ?_
  refine (holds_silent .nowRfc3339).bind fun time => ?_
  refine Meets.bind (Q := fun _ => Holds chain r) (holds_insertInto ?_) fun _ =>
    Meets.pure fun _ held => held
  exact fun st same => same

/-- How the transaction of a spawn ended: it found the request, or stored it after its event. -/
def Requested (s : World) (caller cellName key : String) (event : AuditEventDraft) :
    String ⊕ CellThread → World → Prop
  | .inl _, w => w.store = s.store ∧ w.audit = s.audit
  | .inr _, w => ∃ threadId time, Holds (s.audit ++ [event]) { s.store.registry with
    spawnRequests := s.store.spawnRequests ++ [⟨caller, cellName, key, threadId, time⟩] } w

theorem Requested.steps {caller cellName key : String} {engine : EngineKind} {w w' : World}
    {o : String ⊕ CellThread} (here : w.At s.snapshot)
    (requested : Requested s caller cellName key (spawnRequested caller cellName key engine) o w') :
    Relation.ReflTransGen (Orderly s (spawnRequested caller cellName key engine)) w w' := by
  have store : w.store = s.store := here.store
  have audit : w.audit = s.audit := here.audit
  cases o with
  | inl threadId =>
    obtain ⟨still, same⟩ := requested
    exact .single (.aside (still.trans store.symm) (same.trans audit.symm))
  | inr thread =>
    obtain ⟨threadId, time, appended, registry⟩ := requested
    let announced : World := { w with
      audit := w.audit ++ [spawnRequested caller cellName key engine] }
    refine .head (b := announced) (.announced store audit rfl rfl) (.single ?_)
    refine .written store ?_ ?_ ?_
    · rw [← audit]
    · rw [appended, ← audit]
    · rw [registry, show announced.store = s.store from store]
      exact .spawned s.store.registry ⟨caller, cellName, key, threadId, time⟩ engine

theorem spawnIdempotent_orderly [Platform] {caller cellName key payload : String} {launch : Launch}
    {depthCap : Nat} :
    Meets (Orderly s (spawnRequested caller cellName key launch.engine)) (·.At s.snapshot)
      (spawnIdempotent caller cellName key payload launch depthCap) (fun _ _ => True) := by
  refine Meets.bind (Q := fun _ w => w.At s.snapshot) (.ofExcept fun _ _ _ here => here) fun _ => ?_
  refine Meets.bind (Q := fun _ w => w.At s.snapshot) (.ofExcept fun _ _ _ here => here) fun _ => ?_
  refine (meets_mayFail Orderly.ofQuiet).bind fun _ => Meets.bind (Q := fun _ _ => True) ?_ fun o => ?_
  · refine meets_atomically (T := Appends s (spawnRequested caller cellName key launch.engine))
      (Q := Requested s caller cellName key (spawnRequested caller cellName key launch.engine)) ?_
      (fun w w' o here _ requested => ⟨requested.steps here, trivial⟩) fun w w' here path => ?_
    · refine ((Silent.query _).meets Appends.ofQuiet).bind fun row => ?_
      cases row with
      | some row =>
        refine (meets_mayFail Appends.ofQuiet).bind fun _ => Meets.pure fun w here => ?_
        exact ⟨here.store, here.audit⟩
      | none =>
        refine (meets_append Appends.ofQuiet fun w here _ => .inr ?_).bind fun logged => ?_
        · show w.audit ++ _ = _
          rw [show w.audit = s.audit from here.audit]
          rfl
        cases logged with
        | error e => exact Meets.throw
        | ok u =>
          refine Meets.weaken (P := Holds (s.audit ++
            [spawnRequested caller cellName key launch.engine]) s.store.registry)
            (fun w appended => ?_) (fun _ _ requested => requested) ?_
          · have here := appended.1 rfl
            exact ⟨here.audit, congrArg Store.registry here.store⟩
          refine Meets.bind (holds_execute fun _ => rfl) fun _ => ?_
          refine (holds_silent (.query _)).bind fun locked => Meets.ite (fun _ => Meets.throw) fun _ => ?_
          refine (holds_silent (.query _)).bind fun busy => Meets.ite (fun _ => Meets.throw) fun _ => ?_
          refine (holds_silent .newUuidv7).bind fun threadId => ?_
          refine (holds_silent .nowRfc3339).bind fun time => ?_
          refine Meets.bind (Q := fun _ => Holds (s.audit ++
            [spawnRequested caller cellName key launch.engine]) { s.store.registry with
              spawnRequests := s.store.spawnRequests ++ [⟨caller, cellName, key, threadId, time⟩] })
            (holds_insertInto fun st same => ?_) fun _ => ?_
          · rw [← same, ← show st.spawnRequests = s.store.spawnRequests from
              congrArg Registry.spawnRequests same]
            rfl
          refine Meets.bind (holds_insertInto fun st same => same) fun _ => ?_
          refine (jobEnqueueInner_holds _ _ _ _).bind fun _ => ?_
          exact (holds_silent .mayFail).bind fun _ => Meets.pure fun _ held => ⟨threadId, time, held⟩
    · have store : w.store = s.store := here.store
      have audit : w.audit = s.audit := here.audit
      rcases Appends.path path audit with same | appended
      · exact .single (.aside rfl (same.trans audit.symm))
      · exact .single (.announced store audit rfl (by rw [audit]; exact appended))
  · cases o with
    | inr thread => exact Meets.pure fun _ _ => trivial
    | inl threadId =>
      refine ((Silent.query _).always Orderly.ofQuiet).bind fun thread => ?_
      cases thread with
      | none => exact Meets.throw
      | some thread => exact Meets.pure fun _ _ => trivial

end Steps

section Runs

theorem changes_of_meets {m : Act Unit} {event : AuditEventDraft} {w : World} (i : Input Outside)
    (met : Meets (Orderly w event) (·.At w.snapshot) m (fun _ _ => True)) :
    ChangesAnnounced w (m.exec (w.install i)).2 event := by
  have installed := w.quiet_install i
  have path := (met _ (w.at_snapshot.quiet installed)).1
  exact changes_of_steps (.head (.ofQuiet _ _ installed) path)

theorem changes_of_call [Platform] (op : RegistryOp) (i : Input Outside) (w : World) :
    ∃ event, ChangesAnnounced w (op.run.exec (w.install i)).2 event := by
  cases op with
  | cellRegister d => exact ⟨_, changes_of_meets i (cellRegister_meets d)⟩
  | cellUpdate d => exact ⟨_, changes_of_meets i (cellUpdate_meets d)⟩
  | spawnIdempotent caller cellName key payload launch depthCap =>
    refine ⟨_, changes_of_meets i (Meets.ignore spawnIdempotent_orderly ?_)⟩
    exact fun _ _ _ _ => trivial
  | worktreeRecord canonicalize path threadId =>
    obtain ⟨event, met⟩ := worktreeRecord_meets (s := w) canonicalize path threadId
    exact ⟨event, changes_of_meets i met⟩
  | worktreeMarkCleanup canonicalize path =>
    obtain ⟨event, met⟩ := worktreeMarkCleanup_meets (s := w) canonicalize path
    exact ⟨event, changes_of_meets i met⟩

variable {r r' : Registry} {chain longer : List AuditEventDraft} {event : AuditEventDraft}

/-- A longer chain announces no less. -/
theorem RowsAnnounced.grow (rows : RowsAnnounced r chain) (grows : chain <+: longer) :
    RowsAnnounced r longer := by
  constructor
  · intro d member
    obtain ⟨⟨first, named, registered⟩, last⟩ := rows.cells d member
    exact ⟨⟨first, named, grows.subset registered⟩,
      last.imp (fun h => grows.subset h) fun h => grows.subset h⟩
  · intro row member
    obtain ⟨engine, requested⟩ := rows.spawnRequests row member
    exact ⟨engine, grows.subset requested⟩
  · intro tree member
    obtain ⟨created, cleanup⟩ := rows.worktrees tree member
    exact ⟨grows.subset created, fun marked => grows.subset (cleanup marked)⟩

/-- The rows that a change adds or rewrites are announced by its event. -/
theorem RowsAnnounced.step (rows : RowsAnnounced r chain) (change : Announces event r r') :
    RowsAnnounced r' (chain ++ [event]) := by
  have before := rows.grow (List.prefix_append chain [event])
  have last : event ∈ chain ++ [event] := by simp
  cases change with
  | registered _ d new =>
    refine ⟨fun known member => ?_, before.spawnRequests, before.worktrees⟩
    rcases List.mem_append.mp member with old | added
    · exact before.cells known old
    · obtain rfl := List.mem_singleton.mp added
      exact ⟨⟨known, rfl, last⟩, .inl last⟩
  | updated _ d =>
    refine ⟨fun known member => ?_, before.spawnRequests, before.worktrees⟩
    obtain ⟨old, stored, rfl⟩ := mem_updateWhere.mp member
    by_cases named : old.name = d.name
    · obtain ⟨first, same, registered⟩ := (before.cells old stored).1
      simp only [named, decide_true, ite_true]
      exact ⟨⟨first, same.trans named, registered⟩, .inr last⟩
    · simp only [named, decide_false, Bool.false_eq_true, ite_false]
      exact before.cells old stored
  | spawned _ row engine =>
    refine ⟨before.cells, fun known member => ?_, before.worktrees⟩
    rcases List.mem_append.mp member with old | added
    · exact before.spawnRequests known old
    · obtain rfl := List.mem_singleton.mp added
      exact ⟨engine, last⟩
  | recorded _ tree created new =>
    refine ⟨before.cells, before.spawnRequests, fun known member => ?_⟩
    rcases List.mem_append.mp member with old | added
    · exact before.worktrees known old
    · obtain rfl := List.mem_singleton.mp added
      exact ⟨last, fun marked => by rw [created] at marked; cases marked⟩
  | cleanup _ path =>
    refine ⟨before.cells, before.spawnRequests, fun known member => ?_⟩
    obtain ⟨old, stored, rfl⟩ := mem_updateWhere.mp member
    by_cases named : old.canonicalPath = path
    · simp only [named, decide_true, ite_true]
      refine ⟨(before.worktrees old stored).1, fun _ => ?_⟩
      rw [show old.requestCleanup.canonicalPath = path from named]
      exact last
    · simp only [named, decide_false, Bool.false_eq_true, ite_false]
      exact before.worktrees old stored

theorem rows_of_changes {w w' : World} (changes : ChangesAnnounced w w' event)
    (rows : RowsAnnounced w.store.registry w.audit) :
    RowsAnnounced w'.store.registry w'.audit := by
  rcases changes.chain with ⟨audit, store⟩ | ⟨audit, store | change⟩
  · rw [audit, store]
    exact rows
  · rw [audit, store]
    exact rows.grow (List.prefix_append _ _)
  · rw [audit]
    exact rows.step change

/-- In every run from an empty registry each row has its event in the chain, and each
operation announces what it changes: without the event it changes nothing. -/
theorem registry_announced [Platform] {s t : World} (empty : s.store.registry = ⟨[], [], []⟩)
    (run : Relation.ReflTransGen RegistryStep s t) :
    RowsAnnounced t.store.registry t.audit ∧ ∀ (op : RegistryOp) (i : Input Outside),
      ∃ event, ChangesAnnounced t (op.run.exec (t.install i)).2 event := by
  constructor
  · induction run with
    | refl =>
      rw [empty]
      exact ⟨by simp, by simp, by simp⟩
    | tail _ last ih =>
      cases last with
      | call op i w =>
        obtain ⟨event, changes⟩ := changes_of_call op i _
        exact rows_of_changes changes ih
      | meanwhile w w' same grows =>
        rw [same]
        exact ih.grow grows
  · exact fun op i => changes_of_call op i t

/-- Operations one after another, each with its own clock and failing statements. -/
def perform [Platform] (w : World) : List (RegistryOp × Input Outside) → World
  | [] => w
  | (op, i) :: later => perform (op.run.exec (w.install i)).2 later

theorem steps_perform [Platform] (calls : List (RegistryOp × Input Outside)) (w : World) :
    Relation.ReflTransGen RegistryStep w (perform w calls) := by
  induction calls generalizing w with
  | nil => exact .refl
  | cons call later ih => exact .head (.call call.1 call.2 w) (ih _)

/-- Every operation once, and an update whose append fails. -/
def everyOperation : List (RegistryOp × Input Outside) :=
  [(.cellRegister reviewer, moment 1783242000),
    (.cellUpdate { reviewer with cwd := "/lost" },
      { moment 1783242001 with faults := [none, some "disk full"] }),
    (.cellUpdate { reviewer with model := some "large" }, moment 1783242002),
    (.spawnIdempotent "coder" "reviewer" "k1" "review" ⟨.fake, none, none, ".", none⟩ 8,
      moment 1783242003),
    (.worktreeRecord .ok "/work//t1" firstThread, moment 1783242004),
    (.worktreeMarkCleanup .ok "/work/./t1", moment 1783242005)]

theorem registry_announced_every : ∃ t, let _ := Platform.sample
    t = perform blankWorld everyOperation ∧
    (t.store.cells.map (fun d => (d.name, d.cwd, d.model)) = [("reviewer", ".", some "large")] ∧
      t.store.spawnRequests.map (·.crewdThreadId) = [firstThread] ∧
      t.store.worktrees.map (fun tree => (tree.canonicalPath, tree.state)) =
        [("/work/t1", .cleanupRequested)]) ∧
    RowsAnnounced t.store.registry t.audit := by
  let _ := Platform.sample
  refine ⟨_, rfl, by decide +kernel, ?_⟩
  exact (registry_announced rfl (steps_perform everyOperation blankWorld)).1

end Runs

end Crewd.Fabric
