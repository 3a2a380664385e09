import Crewd.Fabric.Atomicity
import Crewd.Fabric.Enlisting
import Crewd.Fabric.Idempotence

/-! Where threads come from. No section rewrites the registry or what a thread was launched
with, and only the last section of a `cell_spawn` adds a thread: the one that the call is
answered with. -/
namespace Crewd.Fabric
open Autocommit Concurrent Table

/-- Registered cells stay registered, each once, and threads keep what they were launched with. -/
structure Retains (w w' : World) : Prop where
  cells : ∀ d ∈ w.store.cells, ∃ d' ∈ w'.store.cells, d'.name = d.name
  once : (w.store.cells.map (·.name)).Nodup → (w'.store.cells.map (·.name)).Nodup
  threads : ∀ t ∈ w.store.threads, ∃ t' ∈ w'.store.threads, t'.fixed = t.fixed

/-- No thread is added. -/
structure Lasts (w w' : World) : Prop extends Retains w w' where
  old : ∀ t' ∈ w'.store.threads, ∃ t ∈ w.store.threads, t.fixed = t'.fixed

variable {w w' w'' : World} {α β : Type}

theorem Retains.trans (first : Retains w w') (second : Retains w' w'') : Retains w w'' := by
  constructor
  · intro d member
    obtain ⟨d', member', same⟩ := first.cells d member
    obtain ⟨d'', member'', same'⟩ := second.cells d' member'
    exact ⟨d'', member'', same'.trans same⟩
  · exact fun once => second.once (first.once once)
  · intro t member
    obtain ⟨t', member', same⟩ := first.threads t member
    obtain ⟨t'', member'', same'⟩ := second.threads t' member'
    exact ⟨t'', member'', same'.trans same⟩

namespace Lasts

theorem tables (cells : w'.store.cells = w.store.cells) (threads : w'.store.threads = w.store.threads) :
    Lasts w w' := by
  constructor
  · constructor
    · intro d member
      exact ⟨d, cells ▸ member, rfl⟩
    · rw [cells]
      exact id
    · intro t member
      exact ⟨t, threads ▸ member, rfl⟩
  · intro t member
    exact ⟨t, threads ▸ member, rfl⟩

theorem same (store : w'.store = w.store) : Lasts w w' :=
  .tables (congrArg Store.cells store) (congrArg Store.threads store)

theorem trans (first : Lasts w w') (second : Lasts w' w'') : Lasts w w'' := by
  constructor
  · exact first.toRetains.trans second.toRetains
  · intro t'' member
    obtain ⟨t', member', same⟩ := second.old t'' member
    obtain ⟨t, member, same'⟩ := first.old t' member'
    exact ⟨t, member, same'.trans same⟩

theorem updatedThread {id : String} {f : CellThread → CellThread}
    (keeps : ∀ t, (f t).fixed = t.fixed) (store : w'.store = w.store.updateThread id f) :
    Lasts w w' := by
  have cells : w'.store.cells = w.store.cells := by rw [store]; rfl
  have same : ∀ t : CellThread, (if t.crewdThreadId = id then f t else t).fixed = t.fixed := by
    intro t
    split
    · exact keeps t
    · rfl
  constructor
  · constructor
    · intro d member
      exact ⟨d, cells ▸ member, rfl⟩
    · rw [cells]
      exact fun once => once
    · intro t member
      rw [store]
      exact ⟨_, mem_updateThread.mpr ⟨t, member, rfl⟩, same t⟩
  · intro t' member
    rw [store] at member
    obtain ⟨t, stored, rfl⟩ := mem_updateThread.mp member
    exact ⟨t, stored, (same t).symm⟩

end Lasts

instance : Admits Lasts where
  deed deed := by
    cases deed with
    | quiet same => exact .same same.store
    | event draft => exact .same rfl
    | job id f marks keeps mild => exact .tables rfl rfl
    | thread id f marks keeps mild => exact .updatedThread keeps rfl
    | line row event => exact .tables rfl rfl
    | schedule f marks lands mild => exact .same rfl
    | cancels c => exact .same rfl
  trans := .trans
  undone _ := .same rfl

instance : Drains Lasts where
  poll turn w := .same (poll_leaves turn w).1
  apply _ _ _ := .same rfl

section Events

theorem Lasts.registered {d : CellDef} {audit : List AuditEventDraft}
    (new : ∀ d' ∈ w.store.cells, d'.name ≠ d.name) : Lasts w { w with
      store := { w.store with cells := w.store.cells ++ [d] }, audit := audit } := by
  constructor
  · constructor
    · intro d' member
      exact ⟨d', List.mem_append_left _ member, rfl⟩
    · intro once
      simp only [List.map_append, List.map_cons, List.map_nil]
      apply List.Nodup.append once (List.nodup_singleton _)
      intro name before here
      obtain ⟨d', member, rfl⟩ := List.mem_map.mp before
      exact new d' member (List.mem_singleton.mp here)
    · exact fun t member => ⟨t, member, rfl⟩
  · exact fun t member => ⟨t, member, rfl⟩

theorem Lasts.updated {d : CellDef} {audit : List AuditEventDraft} : Lasts w { w with
    store := { w.store with cells := updateWhere (·.name = d.name) (fun _ => d) w.store.cells }
    audit := audit } := by
  have names : (updateWhere (·.name = d.name) (fun _ => d) w.store.cells).map (·.name) =
      w.store.cells.map (·.name) := by
    apply map_updateWhere
    intro d' _ named
    exact (of_decide_eq_true named).symm
  constructor
  · constructor
    · intro d' member
      have listed := List.mem_map_of_mem (f := (·.name)) member
      rw [← names] at listed
      exact List.mem_map.mp listed
    · intro once
      show (List.map _ (updateWhere _ _ _)).Nodup
      rw [names]
      exact once
    · exact fun t member => ⟨t, member, rfl⟩
  · exact fun t member => ⟨t, member, rfl⟩

variable [Platform]

omit [Platform] in
theorem happens_lasts (event : Event) (w w' : World) (happened : happens event w = some w') :
    Lasts w w' := by
  cases event with
  | emitted cell turn event =>
    simp only [happens] at happened
    split at happened <;> cases happened
    exact .same rfl
  | identified cell sessionId =>
    simp only [happens] at happened
    split at happened <;> cases happened
    exact .same rfl
  | cellRegistered d =>
    simp only [happens] at happened
    split at happened
    · rename_i allowed
      cases happened
      apply Lasts.registered
      simpa using allowed.2
    · cases happened
  | cellUpdated d =>
    simp only [happens] at happened
    split at happened <;> cases happened
    exact .updated
  | audited draft =>
    simp only [happens] at happened
    split at happened <;> cases happened
    exact .same rfl
  | died cell | minted =>
    cases happened
    exact .same rfl

theorem loop_lasts : System.Tends Lasts service.loop :=
  Process.Along.bind (tick_throughout (fun _ _ _ _ => startTurn_keeping fun _ _ => .same) []) fun _ _ _ => trivial

theorem restart_lasts (i : Input Outside) (w : World) : Lasts w (service.restart i w).1 := by
  have installed : Lasts w ({ w.install i with
      memory := .new (i.outside.start.getD .empty), history := .restarted :: w.history } : World) :=
    .same rfl
  exact installed.trans (bootRecovery_keeping _)

end Events

section Spawned
variable [Platform] {caller key payload : String} {target : Target} {launch : Launch} {task : Nat}

/-- What a computation answers, whatever it was run from. -/
def Returns (m : Act α) (Q : α → Prop) : Prop := ∀ w a, (m.exec w).1 = .ok a → Q a

omit [Platform] in
theorem Returns.pure {a : α} {Q : α → Prop} (holds : Q a) : Returns (Pure.pure a) Q := by
  intro w b same
  cases same
  exact holds

omit [Platform] in
theorem Returns.throw {e : BusError} {Q : α → Prop} : Returns (MonadExcept.throw e) Q := by
  intro w a same
  cases same

omit [Platform] in
theorem Returns.bind {m : Act α} {f : α → Act β} {P : α → Prop} {Q : β → Prop} (first : Returns m P)
    (rest : ∀ a, P a → Returns (f a) Q) : Returns (m >>= f) Q := by
  intro w b same
  rw [Action.exec_bind] at same
  cases run : m.exec w with
  | mk r w' =>
    rw [run] at same
    cases r with
    | error e => cases same
    | ok a => exact rest a (first w a (by rw [run])) w' b same

omit [Platform] in
theorem Returns.after {m : Act α} {f : α → Act β} {Q : β → Prop} (rest : ∀ a, Returns (f a) Q) :
    Returns (m >>= f) Q :=
  bind (P := fun _ => True) (fun _ _ _ => trivial) fun a _ => rest a

omit [Platform] in
theorem Returns.atomically {m : Act α} {Q : α → Prop} (returns : Returns m Q) :
    Returns (atomically m) Q := by
  intro w a same
  simp only [Crewd.atomically, Action.exec_mk] at same
  cases run : m.exec w with
  | mk r w' =>
    rw [run] at same
    cases r with
    | error e => cases same
    | ok b =>
      cases same
      exact returns w _ (by rw [run])

/-- A new thread has the launch parameters of the call. -/
theorem spawnIdempotent_returns (cellName : String) (depthCap : Nat) :
    Returns (spawnIdempotent caller cellName key payload launch depthCap)
      fun r => r.2 = false → r.1.launch = launch := by
  refine .after fun _ => .after fun _ => .after fun _ => ?_
  refine .bind (P := fun o => ∀ thread, o = .inr thread → thread.launch = launch)
    (.atomically (.after fun row => ?_)) fun o made => ?_
  · cases row with
    | some row => exact .after fun _ => .pure fun _ same => by cases same
    | none =>
      refine .after fun logged => ?_
      cases logged with
      | error e => exact .throw
      | ok u =>
        refine .after fun _ => .after fun present => ?_
        split
        · exact .throw
        refine .after fun active => ?_
        split
        · exact .throw
        refine .after fun threadId => .after fun now => .after fun _ => .after fun _ => ?_
        refine .after fun job => .after fun _ => .pure fun thread same => ?_
        cases same
        rfl
  · cases o with
    | inr thread => exact .pure fun _ => made thread rfl
    | inl threadId =>
      refine .after fun found => ?_
      cases found with
      | none => exact .throw
      | some thread => exact .pure fun again => by cases again

omit [Platform] in
theorem Plants.path_history (path : Relation.ReflTransGen Plants w w') : w'.history = w.history := by
  induction path with
  | refl => rfl
  | tail _ last ih =>
    rw [← ih]
    cases last with
    | quiet same => exact same.history
    | _ => rfl

/-- What the last section of a spawn did, and how it answers. -/
inductive SpawnResult (task : Nat) (caller key payload : String) (target : Target) (launch : Launch)
    (w w' : World) : Except BusError (CellThread × Bool) → Prop where
  | failed (e) : w'.store = w.store → SpawnResult task caller key payload target launch w w' (.error e)
  | again (thread : CellThread) (row : SpawnRow) : w'.store = w.store → thread ∈ w.store.threads →
      row ∈ w.store.spawnRequests → row.is caller target.cellName key = true →
      row.crewdThreadId = thread.crewdThreadId →
      SpawnResult task caller key payload target launch w w' (.ok (thread, true))
  | made (locks) (row : SpawnRow) (thread : CellThread) (job : CellJob) (call : Spawned) :
      w'.store = w.store.spawn locks row thread job → thread.cellName = target.cellName →
      thread.launch = launch → w'.history = .spawned task call :: w.history →
      call.target = target → call.replayed = false → call.crewdThreadId = thread.crewdThreadId →
      SpawnResult task caller key payload target launch w w' (.ok (thread, false))

theorem spawnAndRecord_result (w : World) :
    SpawnResult task caller key payload target launch w
      ((spawnAndRecord task caller target key payload launch).exec w).2
      ((spawnAndRecord task caller target key payload launch).exec w).1 := by
  have whole : Whole w.store (·.store = w.store)
      (spawnIdempotent caller target.cellName key payload launch queueDepthDefault)
      (fun r w' => Settled caller target.cellName key payload w.store (.ok r) w'.store) :=
    spawnIdempotent_whole
  have settled := whole w rfl
  have returns : Returns (spawnIdempotent caller target.cellName key payload launch queueDepthDefault)
      _ := spawnIdempotent_returns _ _
  have launched := returns w
  have met : Meets Plants (·.At w.snapshot)
      (spawnIdempotent caller target.cellName key payload launch queueDepthDefault) _ :=
    spawnIdempotent_meets
  have history := Plants.path_history (met w w.at_snapshot).1
  simp only [spawnAndRecord, readStore, record, Action.exec_bind, Action.exec_step]
  cases ran : (spawnIdempotent caller target.cellName key payload launch queueDepthDefault).exec w with
  | mk r w' =>
    rw [ran] at settled launched history
    cases r with
    | error e => exact .failed e settled
    | ok answer =>
      obtain ⟨thread, replayed⟩ := answer
      cases replayed with
      | true =>
        obtain ⟨same, stored, row, listed, keyed, named⟩ := settled
        exact .again thread row same stored listed keyed named
      | false =>
        obtain ⟨row, job, linked, store⟩ := settled
        exact .made _ row thread job _ store linked.threadCell (launched _ rfl rfl)
          (congrArg (List.cons _) history) rfl rfl rfl

end Spawned

section Calls
variable [Platform]

omit [Platform] in
theorem apart_keeping {R : World → World → Prop} [Admits R] {m : Act α} (keeping : Keeping R m) :
    (locked m).run.Apart (fun _ => False) R :=
  apart_locked fun _ w => Admits.trans (Admits.deed (.quiet (w.quiet_install _))) (keeping _)

theorem enqueueOn_lasts (p : CellSendTaskParams) : Keeping Lasts (enqueueOn p) := by
  refine .bind (threadOrUnknown_keeping _) fun thread => .ite (.throw _) ?_
  refine .transaction (.bind (.query _) fun count => .ite (.throw _) (.bind (.query _) fun next =>
    .bind (.silent .newUuidv7) fun id => .bind (.silent .nowRfc3339) fun time => ?_))
  exact .bind (.insertInto fun _ => .tables rfl rfl) fun _ => .pure _

/-- The sections that may add a thread. -/
def Spawns.On (request : Request) (code : Process World (Input Outside) (Except BusError Answer)) :
    Prop :=
  ∃ task caller params p chosen, request = .spawn caller params ∧ params.parsed = .ok p ∧
    code = (spawnOn task caller p chosen).run

theorem handleSpawn_apart (task : Nat) (caller : String) (params : Params CellSpawnParams) :
    (handleSpawn task caller params).run.Apart (Spawns.On (.spawn caller params)) Lasts := by
  apply apart_raise
  intro _ _
  apply apart_raise
  intro p parsed
  apply apart_bind (apart_keeping (checkCapability_keeping _ _))
  intro _
  apply apart_raise
  intro _ _
  apply apart_raise
  intro _ _
  apply apart_bind
  · cases p.cell with
    | none => trivial
    | some c => exact apart_keeping (.query _)
  intro named
  apply apart_raise
  intro reqEngine _
  apply apart_raise
  intro resolved _
  apply apart_bind
  · cases resolved with
    | named d => trivial
    | ephemeral engine model profile cwd =>
      exact apart_bind (apart_keeping (.silent .newUuidv7)) fun _ => trivial
  intro chosen
  constructor
  · exact .inl ⟨task, caller, params, p, chosen, rfl, parsed_of_ok parsed, rfl⟩
  · intro i w
    change Process.Apart _ _ (ExceptT.bindCont _ ((spawnAndRecord task caller chosen.1 _ _ _).exec
      (w.install i)).1)
    cases ((spawnAndRecord task caller chosen.1 p.idempotencyKey p.task chosen.2).exec
      (w.install i)).1 <;> trivial

theorem program_apart (task : Nat) (request : Request) :
    (service.program task request).Apart (Spawns.On request) Lasts := by
  cases request with
  | spawn caller params => exact handleSpawn_apart task caller params
  | sendTask caller params =>
    apply apart_raise
    intro _ _
    apply apart_raise
    intro p _
    apply apart_bind (apart_keeping (checkCapability_keeping _ _))
    intro _
    exact apart_bind (apart_keeping (enqueueOn_lasts p)) fun _ => trivial
  | cancel caller params =>
    apply apart_raise
    intro _ _
    apply apart_raise
    intro p _
    apply apart_bind (apart_keeping (checkCapability_keeping _ _))
    intro _
    apply apart_bind (apart_keeping (cancelThread_keeping _ _))
    intro cancelled
    apply apart_bind (apart_keeping .audit)
    intro _
    exact apart_bind (apart_keeping (.step fun _ => .cancels _)) fun _ => trivial

/-- A move of the fabric adds a thread only as the last section of a spawn. -/
theorem move_lasts {u v : FabricConfig} (reached : service.Reaches w u)
    (stepped : service.next u action = some v) : Lasts u.shared v.shared ∨
      ∃ task i k caller params p chosen, action = .run task i ∧
        u.pool[task]? = some (.spawn caller params, some (spawnOn k caller p chosen).run) ∧
        params.parsed = .ok p := by
  have program : ∀ task request, (service.program task request).Along
      (fun _ _ _ _ => True) (fun _ _ => True) [] :=
    fun _ _ => .always (fun _ _ _ _ => trivial) fun _ _ => trivial
  rcases System.move_of_reaches program loop_lasts happens_lasts reached stepped with
    ⟨task, i, request, code, rfl, found, _⟩ | same | aside | ⟨i, _, crashed⟩
  · obtain ⟨_, _, code', found', ran, _⟩ := System.run_next stepped
    cases found'.symm.trans found
    have apart := (program_apart task request).becomes (System.program_becomes reached found)
    obtain ⟨ready, act, next, rfl, _, moved⟩ := ((Process.Becomes.refl _).step ran).2
    rcases apart.1 with ⟨k, caller, params, p, chosen, rfl, parsed, same⟩ | lasts
    · exact .inr ⟨task, i, k, caller, params, p, chosen, rfl, same ▸ found, parsed⟩
    · rw [moved]
      exact .inl (lasts i u.shared)
  · exact .inl (.same (congrArg Crewd.World.store same))
  · exact .inl aside
  · rw [show v.shared = _ from crashed]
    exact .inl (restart_lasts i u.shared)

omit [Platform] in
theorem SpawnResult.retains {r : Except BusError (CellThread × Bool)}
    (result : SpawnResult task caller key payload target launch w w' r) : Retains w w' := by
  cases result with
  | failed e same => exact (Lasts.same same).toRetains
  | again thread row same _ _ _ _ => exact (Lasts.same same).toRetains
  | made locks row thread job call store _ _ _ _ _ _ =>
    constructor
    · intro d member
      rw [store]
      exact ⟨d, member, rfl⟩
    · rw [store]
      exact id
    · intro t member
      rw [store]
      exact ⟨t, List.mem_append_left _ member, rfl⟩

theorem move_retains {u v : FabricConfig} (reached : service.Reaches w u)
    (stepped : service.next u action = some v) : Retains u.shared v.shared := by
  rcases move_lasts reached stepped with lasts | ⟨task, i, k, caller, params, p, chosen, rfl, found, _⟩
  · exact lasts.toRetains
  · obtain ⟨_, _, _, found', ran, _⟩ := System.run_next stepped
    cases found'.symm.trans found
    rw [(spawnOn_step ran).1]
    have installed : Lasts u.shared (u.shared.install i) := .same rfl
    exact installed.toRetains.trans (spawnAndRecord_result _).retains

theorem run_retains {u v : FabricConfig} (reached : service.Reaches w u) (later : service.Leads u v) :
    Retains u.shared v.shared := by
  induction later with
  | refl => exact (Lasts.same rfl).toRetains
  | next before stepped ih => exact ih.trans (move_retains (reached.trans _ before) stepped)

/-- What a spawn has found on the way to its last section. -/
inductive Chose (p : CellSpawnParams) : List (Input Outside × World) → Target × Launch → Prop where
  | named (check lookup : Input Outside × World) (d : CellDef) : p.cell = some d.name →
      ¬ ['~'] <+: d.name.toList → lookup.2.store.cell d.name = some d →
      Chose p [check, lookup]
        (.named d.name, ⟨d.engine, d.model, d.profile, d.cwd, p.worktree⟩)
  | unknown (check lookup mint : Input Outside × World) (c uuid : String) (engine : EngineKind) :
      p.cell = some c → ¬ ['~'] <+: c.toList → lookup.2.store.cell c = none →
      Chose p [check, lookup, mint]
        (.ephemeral uuid, ⟨engine, p.model, p.profile, p.cwd.getD ".", p.worktree⟩)
  | ephemeral (check mint : Input Outside × World) (uuid : String) (engine : EngineKind) :
      p.cell = none → Chose p [check, mint]
        (.ephemeral uuid, ⟨engine, p.model, p.profile, p.cwd.getD ".", p.worktree⟩)

/-- No section has changed the tables. -/
def Untouched (stages : List (Stage World (Input Outside))) : Prop :=
  ∀ stage ∈ stages, stage.after.store = stage.before.store

omit [Platform] in
theorem Untouched.append {before after : List (Stage World (Input Outside))}
    (first : Untouched before) (second : Untouched after) : Untouched (before ++ after) := by
  intro stage member
  rcases List.mem_append.mp member with old | new
  · exact first stage old
  · exact second stage new

omit [Platform] in
theorem Untouched.single {i : Input Outside} {x y : World} (same : y.store = x.store) :
    Untouched [⟨i, x, y⟩] := by
  intro stage member
  obtain rfl := List.mem_singleton.mp member
  exact same

omit [Platform] in
/-- A section that only reads ends the call, or the call goes on with what was read. -/
theorem silent_takes {m : Act α} {f : α → Handler β} {stages : List (Stage World (Input Outside))}
    {r : Except BusError β} (silent : Silent m) (takes : (locked m >>= f).run.Takes stages r) :
    (∃ e, r = .error e ∧ Untouched stages) ∨ ∃ i x y rest a, stages = ⟨i, x, y⟩ :: rest ∧
      y.store = x.store ∧ (m.exec (x.install i)).1 = .ok a ∧ (f a).run.Takes rest r := by
  obtain ⟨i, x, rest, rfl, ended⟩ := takes_section takes
  have same := (silent (x.install i)).store
  rcases ended with ⟨a, ran, later⟩ | ⟨e, _, rfl, rfl⟩
  · exact .inr ⟨i, x, _, rest, a, rfl, same, ran, later⟩
  · exact .inl ⟨e, rfl, .single same⟩

/-- The call ends without a change of the tables, or with the result of its last section. -/
def SpawnTakes (task : Nat) (caller : String) (params : Params CellSpawnParams)
    (stages : List (Stage World (Input Outside))) (r : Except BusError Answer) : Prop :=
  (∃ e, r = .error e ∧ Untouched stages) ∨
  ∃ p before i x chosen answer, params.parsed = .ok p ∧ Chose p (visited before) chosen ∧
    stages = before ++ [⟨i, x, ((spawnAndRecord task caller chosen.1 p.idempotencyKey p.task
      chosen.2).exec (x.install i)).2⟩] ∧ Untouched before ∧
    ((spawnAndRecord task caller chosen.1 p.idempotencyKey p.task chosen.2).exec
      (x.install i)).1 = .ok answer ∧
    r = .ok (.spawned answer.1.crewdThreadId answer.2)

section Taken
variable {p : CellSpawnParams} {params : Params CellSpawnParams} {r : Except BusError Answer}
  {before rest stages : List (Stage World (Input Outside))}

theorem SpawnTakes.refused (untouched : Untouched before) (ended : ∃ e, rest = [] ∧ r = .error e) :
    SpawnTakes task caller params (before ++ rest) r := by
  obtain ⟨e, rfl, rfl⟩ := ended
  exact .inl ⟨e, rfl, by simpa using untouched⟩

theorem spawnOn_takes {chosen : Target × Launch} (parsed : params.parsed = .ok p)
    (chose : Chose p (visited before) chosen) (untouched : Untouched before)
    (takes : (spawnOn task caller p chosen).run.Takes rest r) :
    SpawnTakes task caller params (before ++ rest) r := by
  obtain ⟨i, x, rest, rfl, ended⟩ := takes_section takes
  rcases ended with ⟨answer, ran, later⟩ | ⟨e, failed, rfl, rfl⟩
  · obtain ⟨rfl, rfl⟩ := takes_pure later
    exact .inr ⟨p, before, i, x, chosen, answer, parsed, chose, rfl, untouched, ran, rfl⟩
  · have result : SpawnResult task caller p.idempotencyKey p.task chosen.1 chosen.2 (x.install i) _
        _ := spawnAndRecord_result (x.install i)
    rw [failed] at result
    cases result with
    | failed _ same => exact .inl ⟨e, rfl, untouched.append (.single same)⟩

/-- What follows the lookup: the call is refused, or comes to its last section. -/
theorem chosen_takes {named : Option CellDef} (parsed : params.parsed = .ok p)
    (untouched : Untouched before)
    (found : ∀ d, named = some d → Chose p (visited before)
      (.named d.name, ⟨d.engine, d.model, d.profile, d.cwd, p.worktree⟩))
    (minted : named = none → ∀ mint uuid engine, Chose p (visited before ++ [mint])
      (.ephemeral uuid, ⟨engine, p.model, p.profile, p.cwd.getD ".", p.worktree⟩))
    (takes : (do
      let reqEngine ← raise (parseEngine p.engine)
      let resolved ← raise (resolveSpawnTarget named reqEngine p.model p.profile p.cwd)
      let chosen ← chooseTarget p.worktree resolved
      spawnOn task caller p chosen : Handler Answer).run.Takes rest r) :
    SpawnTakes task caller params (before ++ rest) r := by
  rcases takes_checked takes with ⟨reqEngine, _, takes⟩ | ended
  swap
  · exact .refused untouched ended
  rcases takes_checked takes with ⟨resolved, ok, takes⟩ | ended
  swap
  · exact .refused untouched ended
  cases named with
  | some d =>
    simp only [resolveSpawnTarget] at ok
    split at ok
    · cases ok
    · cases ok
      exact spawnOn_takes parsed (found d rfl) untouched takes
  | none =>
    cases reqEngine with
    | none => cases ok
    | some engine =>
      cases ok
      rcases takes_bind takes with ⟨first, later, chosen, rfl, mint, takes⟩ | ⟨e, rfl, mint⟩
      · rcases silent_takes .newUuidv7 mint with ⟨_, failed, _⟩ | ⟨i, x, y, rest, uuid, rfl, same, _, last⟩
        · cases failed
        · obtain ⟨rfl, here⟩ := takes_pure last
          cases here
          have visits : visited before ++ [(i, x)] = visited (before ++ [⟨i, x, y⟩]) := by
            simp [visited]
          have chose := minted rfl (i, x) uuid engine
          rw [visits] at chose
          have made := spawnOn_takes parsed chose (untouched.append (.single same)) takes
          rwa [List.append_assoc] at made
      · rcases silent_takes .newUuidv7 mint with ⟨_, _, quiet⟩ | ⟨_, _, _, _, _, _, _, _, last⟩
        · exact .inl ⟨e, rfl, untouched.append quiet⟩
        · cases (takes_pure last).2

theorem handleSpawn_takes (takes : (service.program task (.spawn caller params)).Takes stages r) :
    SpawnTakes task caller params stages r := by
  have empty : Untouched [] := fun _ member => by cases member
  rcases takes_checked takes with ⟨_, _, takes⟩ | ended
  swap
  · exact .refused empty ended
  rcases takes_checked takes with ⟨p, parsed, takes⟩ | ended
  swap
  · exact .refused empty ended
  rcases silent_takes (checkCapability_silent caller .spawn) takes with
    ⟨e, rfl, quiet⟩ | ⟨i, x, y, rest, _, rfl, same, _, takes⟩
  · exact .inl ⟨e, rfl, quiet⟩
  have untouched : Untouched [⟨i, x, y⟩] := .single same
  rcases takes_checked takes with ⟨_, _, takes⟩ | ended
  swap
  · exact .refused untouched ended
  rcases takes_checked takes with ⟨_, allowed, takes⟩ | ended
  swap
  · exact .refused untouched ended
  cases cell : p.cell with
  | none =>
    rw [cell] at takes
    exact chosen_takes (parsed_of_ok parsed) untouched (fun d same => by cases same)
      (fun _ mint uuid engine => .ephemeral _ mint uuid engine cell) takes
  | some c =>
    rw [cell] at takes allowed
    have plain : ¬ ['~'] <+: c.toList := by
      intro reserved
      simp [rejectReservedName, reserved] at allowed
    have reads : Silent (query (·.cell c) : Act _) := .query _
    rcases silent_takes reads takes with
      ⟨e, rfl, quiet⟩ | ⟨i', x', y', rest, named, rfl, same', read, takes⟩
    · exact .inl ⟨e, rfl, untouched.append quiet⟩
    have known : named = x'.store.cell c := query_reads read
    have both : Untouched [⟨i, x, y⟩, ⟨i', x', y'⟩] := untouched.append (.single same')
    apply chosen_takes (parsed_of_ok parsed) both _ _ takes
    · intro d found
      have found' := known.symm.trans found
      have name : d.name = c := by simpa using List.find?_some found'
      subst name
      exact .named _ _ d cell plain found'
    · intro none mint uuid engine
      exact .unknown _ _ mint c uuid engine cell plain (known.symm.trans none)

end Taken
end Calls

section Runs
variable [Platform] {caller : String} {params : Params CellSpawnParams} {task : Nat}
  {stages : List (Stage World (Input Outside))} {c : FabricConfig}

/-- Every thread was made by a call that was answered with it. -/
theorem thread_born (blank : Blank w) (reached : service.Reaches w c) (stored : t ∈ c.shared.store.threads) :
    ∃ task caller params stages c', service.Took w task (.spawn caller params) stages
      (.ok (.spawned t.crewdThreadId false)) c' ∧ service.Leads c' c := by
  induction reached generalizing t with
  | refl =>
    have none : t ∈ w.store.threads := stored
    rw [blank.store] at none
    cases none
  | @next u action v before stepped ih =>
    have earlier : ∀ t₀ ∈ u.shared.store.threads, t₀.crewdThreadId = t.crewdThreadId →
        ∃ task caller params stages c', service.Took w task (.spawn caller params) stages
          (.ok (.spawned t.crewdThreadId false)) c' ∧ service.Leads c' v := by
      intro t₀ old same
      obtain ⟨task, caller, params, stages, c', took, later⟩ := ih old
      exact ⟨task, caller, params, stages, c', same ▸ took, later.next stepped⟩
    rcases move_lasts before stepped with lasts | ⟨task, i, k, caller, params, p, chosen, rfl, found, _⟩
    · obtain ⟨t₀, old, same⟩ := lasts.old t stored
      exact earlier t₀ old (CellThread.fixed_inj same).1
    · obtain ⟨_, _, code', found', ran, now⟩ := System.run_next stepped
      cases found'.symm.trans found
      obtain ⟨shared, rfl⟩ := spawnOn_step ran
      have result : SpawnResult k caller p.idempotencyKey p.task chosen.1 chosen.2
        (u.shared.install i) _ _ := spawnAndRecord_result (u.shared.install i)
      rw [← shared] at result
      generalize ((spawnAndRecord k caller chosen.1 p.idempotencyKey p.task chosen.2).exec
        (u.shared.install i)).1 = r at result now
      cases result with
      | failed e same => exact earlier t (same ▸ stored) rfl
      | again thread row same _ _ _ _ => exact earlier t (same ▸ stored) rfl
      | made locks row thread job call store _ _ _ _ _ _ =>
        rw [store] at stored
        rcases List.mem_append.mp stored with old | new
        · exact earlier t old rfl
        · obtain rfl := List.mem_singleton.mp new
          obtain ⟨stages, went⟩ := System.went_of_reaches (before.next stepped) now
          exact ⟨task, caller, params, stages, v, went.took (Config.answer_eq_some.mpr ⟨_, now⟩),
            .refl v⟩

omit [Platform] in
/-- The section adds the thread that the call is answered with. -/
structure Makes (task : Nat) (chosen : Target × Launch) (id : String) (w w' : World) : Prop where
  thread : ∃ t ∈ w'.store.threads, t.crewdThreadId = id ∧ t.cellName = chosen.1.cellName ∧
    t.launch = chosen.2
  cells : w'.store.cells = w.store.cells
  marked : ∃ call, .spawned task call ∈ w'.history ∧ call.target = chosen.1 ∧
    call.replayed = false ∧ call.crewdThreadId = id

theorem took_makes {id : String} (took : service.Took w task (.spawn caller params) stages
      (.ok (.spawned id false)) c) : ∃ p before stage chosen, params.parsed = .ok p ∧
    Chose p (visited before) chosen ∧ stages = before ++ [stage] ∧ Untouched before ∧
    Makes task chosen id stage.before stage.after := by
  rcases handleSpawn_takes took.takes with
    ⟨e, failed, _⟩ | ⟨p, before, i, x, chosen, ⟨thread, replayed⟩, parsed, chose, rfl, untouched, ran, ended⟩
  · cases failed
  · cases ended
    refine ⟨p, before, _, chosen, parsed, chose, rfl, untouched, ?_⟩
    have result : SpawnResult task caller p.idempotencyKey p.task chosen.1 chosen.2 (x.install i) _
      _ := spawnAndRecord_result (x.install i)
    rw [ran] at result
    cases result with
    | made locks row _ job call store cell launch history target replayed named =>
      constructor
      · refine ⟨thread, ?_, rfl, cell, launch⟩
        rw [store]
        exact List.mem_append_right _ List.mem_cons_self
      · rw [store]
        rfl
      · exact ⟨call, history ▸ List.mem_cons_self, target, replayed, named⟩

/-- The thread is as it was made: on the chosen cell, with what was found for it. -/
theorem Makes.stays {id : String} {chosen : Target × Launch} {b : FabricConfig} {x : World} (blank : Blank w)
    (reached : service.Reaches w b) (later : service.Leads b c)
    (makes : Makes task chosen id x b.shared) (stored : t ∈ c.shared.store.threads)
    (named : t.crewdThreadId = id) : t.cellName = chosen.1.cellName ∧ t.launch = chosen.2 := by
  obtain ⟨made, there, same, cell, launch⟩ := makes.thread
  obtain ⟨kept, still, fixed⟩ := (run_retains reached later).threads made there
  obtain ⟨sameId, sameCell, sameLaunch⟩ := CellThread.fixed_inj fixed
  have inv := (good_reachable blank (reached.trans _ later)).1
  have one : t = kept := inv.thread_unique stored still (named.trans (same.symm.trans sameId.symm))
  rw [one]
  exact ⟨sameCell.trans cell, sameLaunch.trans launch⟩

/-- What a section found is a state of the run. -/
theorem visit_reached {request : Request} {before : List (Stage World (Input Outside))}
    {visit : Input Outside × World}
    (went : service.Went w task request (before ++ rest) c) (found : visit ∈ visited before) :
    ∃ b : FabricConfig, service.Reaches w b ∧ b.shared = visit.2 ∧ service.Leads b c := by
  obtain ⟨stage, member, rfl⟩ := List.mem_map.mp found
  obtain ⟨first, last, rfl⟩ := List.append_of_mem member
  rw [List.append_assoc, List.cons_append] at went
  obtain ⟨b, b', reached, ⟨stepped, here, _⟩, later, _⟩ := went.split
  exact ⟨b, reached, here, (System.Leads.next (.refl b) stepped).trans _ later⟩

/-- A thread outside the registry is on a cell whose name was minted for it. -/
theorem unregistered_minted (blank : Blank w) (reached : service.Reaches w c)
    (stored : t ∈ c.shared.store.threads)
    (outside : ∀ d ∈ c.shared.store.cells, d.name ≠ t.cellName) : ∃ task call uuid,
      .spawned task call ∈ c.shared.history ∧ call.target = .ephemeral uuid ∧
      call.replayed = false ∧ call.crewdThreadId = t.crewdThreadId ∧
      t.cellName = ephemeralCellName uuid := by
  obtain ⟨task, caller, params, stages, c', took, later⟩ := thread_born blank reached stored
  obtain ⟨p, before, stage, chosen, _, chose, rfl, _, makes⟩ := took_makes took
  have went := took.went
  obtain ⟨b, b', there, ⟨stepped, here, here'⟩, on, _⟩ := went.split
  rw [← here'] at makes
  have leads : service.Leads b' c := on.trans _ later
  obtain ⟨cell, _⟩ := makes.stays blank (there.next stepped) leads stored rfl
  obtain ⟨call, marked, target, fresh, named⟩ := makes.marked
  have mark : .spawned task call ∈ c.shared.history :=
    lasting (P := fun s => .spawned task call ∈ s.history) blank (there.next stepped)
      (fun _ _ _ step _ held => step.grows.history.subset held) marked leads
  have minted : ∀ uuid, chosen.1 = .ephemeral uuid → ∃ task call uuid,
      .spawned task call ∈ c.shared.history ∧ call.target = .ephemeral uuid ∧
      call.replayed = false ∧ call.crewdThreadId = t.crewdThreadId ∧
      t.cellName = ephemeralCellName uuid := by
    intro uuid same
    rw [same] at target cell
    exact ⟨task, call, uuid, mark, target, fresh, named, cell⟩
  generalize visits : visited before = found at chose
  cases chose with
  | named check lookup d _ _ known =>
    have inside : lookup ∈ visited before := by
      rw [visits]
      exact List.mem_cons_of_mem _ List.mem_cons_self
    obtain ⟨e, found, same, on'⟩ := visit_reached went inside
    have listed : d ∈ e.shared.store.cells := by
      rw [same]
      exact List.mem_of_find?_eq_some known
    obtain ⟨d', kept, name⟩ := (run_retains found (on'.trans _ later)).cells d listed
    exact absurd (name.trans cell.symm) (outside d' kept)
  | unknown check lookup mint c uuid engine _ _ _ => exact minted uuid rfl
  | ephemeral check mint uuid engine _ => exact minted uuid rfl

end Runs

end Crewd.Fabric
