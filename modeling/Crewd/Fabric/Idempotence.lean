import Crewd.Fabric.Soundness

/-! Repeated spawns. The request is looked up under the caller, the cell name and the
key; a registered cell has one name, an ephemeral one is given a name by each call. -/
namespace Crewd.Fabric
open Autocommit Concurrent Table

section Targets

/-- The calls come to the same cell: a registered one, or ephemeral ones whose drawn
identifiers end alike. -/
def SameTarget : Target → Target → Prop
  | .named c, .named c' => c = c'
  | .ephemeral uuid, .ephemeral uuid' => shortId uuid = shortId uuid'
  | _, _ => False

theorem ephemeralCellName_reserved (uuid : String) : ['~'] <+: (ephemeralCellName uuid).toList := by
  simp [ephemeralCellName, ephemeralPrefix]

theorem cellName_eq_iff {p : CellSpawnParams} {a b : Target} (first : Targets p a)
    (second : Targets p b) : a.cellName = b.cellName ↔ SameTarget a b := by
  cases a with
  | named c =>
    cases b with
    | named c' => exact Iff.rfl
    | ephemeral uuid =>
      constructor
      · intro same
        apply first.2
        rw [show c = ephemeralCellName uuid from same]
        exact ephemeralCellName_reserved uuid
      · exact False.elim
  | ephemeral uuid =>
    cases b with
    | named c =>
      constructor
      · intro same
        apply second.2
        rw [← show ephemeralCellName uuid = c from same]
        exact ephemeralCellName_reserved uuid
      · exact False.elim
    | ephemeral uuid' =>
      constructor
      · intro same
        have letters := congrArg String.toList same
        simp only [Target.cellName, ephemeralCellName, String.toList_append] at letters
        exact String.toList_inj.mp (List.append_cancel_left letters)
      · exact congrArg (ephemeralPrefix ++ ·)

end Targets

section Deciding
variable [Platform]

/-- The last section of a spawn, and the answer made of it. -/
def spawnOn (task : Nat) (caller : String) (p : CellSpawnParams) (chosen : Target × Launch) :
    Handler Answer := do
  let (thread, replayed) ←
    locked (spawnAndRecord task caller chosen.1 p.idempotencyKey p.task chosen.2)
  pure (.spawned thread.crewdThreadId replayed)

/-- The deciding sections of the call. -/
def SpawnsOn (caller : String) (params : Params CellSpawnParams)
    (code : Process World (Input Outside) (Except BusError Answer)) : Prop :=
  ∃ task p chosen, params.parsed = .ok p ∧ Targets p chosen.1 ∧ code = (spawnOn task caller p chosen).run

omit [Platform] in
theorem lookupCell_answers (name : Option String) : (lookupCell name).run.Decides (fun _ => False)
    fun r => ∀ found, r = .ok found → ∀ d, found = some d → name = some d.name := by
  cases name with
  | none => exact fun found same d known => by cases same; cases known
  | some c =>
    refine .inr fun i s found same d known => ?_
    have met := (meets_query (R := fun _ _ => True) (fun _ _ _ => trivial) (·.cell c) _
      (World.at_snapshot (s.install i))).2 found same
    have stored := met.2.symm.trans known
    rw [show d.name = c by simpa using List.find?_some stored]

theorem chooseTarget_answers {p : CellSpawnParams} {named : Option CellDef} {target : SpawnTarget}
    (allowed : rejectReservedName p.cell = .ok ()) (known : ∀ d, named = some d → p.cell = some d.name)
    {reqEngine : Option EngineKind}
    (resolved : resolveSpawnTarget named reqEngine p.model p.profile p.cwd = .ok target) :
    (chooseTarget p.worktree target).run.Decides (fun _ => False)
      fun r => ∀ chosen, r = .ok chosen → Targets p chosen.1 := by
  cases target with
  | ephemeral engine model profile cwd =>
    refine .inr fun i s chosen same => ?_
    cases same
    trivial
  | named d =>
    intro chosen same
    cases same
    exact targets_named allowed known resolved

theorem handleSpawn_decides (task : Nat) (caller : String) (params : Params CellSpawnParams) :
    (service.program task (.spawn caller params)).Decides (SpawnsOn caller params) Fails := by
  refine decides_bind fun _ => decides_parse fun p parsed => decides_bind fun _ => ?_
  refine decides_bind fun _ => decides_raise fun _ allowed => ?_
  refine decides_bind_of (lookupCell_answers p.cell) fun named known => ?_
  refine decides_raise fun reqEngine _ => decides_raise fun target resolved => ?_
  refine decides_bind_of (chooseTarget_answers allowed known resolved) fun chosen aimed => ?_
  exact .inl ⟨task, p, chosen, parsed, aimed, rfl⟩

/-- The call answers at once, from what the section did. -/
theorem spawnOn_step {task : Nat} {p : CellSpawnParams} {chosen : Target × Launch}
    {code : Process World (Input Outside) (Except BusError Answer)}
    (ran : (spawnOn task caller p chosen).run.step i w = some (code, t)) :
    t = ((spawnAndRecord task caller chosen.1 p.idempotencyKey p.task chosen.2).exec
      (w.install i)).2 ∧
    code = .done (((spawnAndRecord task caller chosen.1 p.idempotencyKey p.task chosen.2).exec
      (w.install i)).1.map fun r => .spawned r.1.crewdThreadId r.2) := by
  cases ran
  refine ⟨rfl, ?_⟩
  change ExceptT.bindCont _ ((spawnAndRecord task caller chosen.1 p.idempotencyKey p.task
    chosen.2).exec (w.install i)).1 = _
  cases ((spawnAndRecord task caller chosen.1 p.idempotencyKey p.task chosen.2).exec
    (w.install i)).1 with
  | ok r => rfl
  | error e => rfl

theorem spawnsOn_final (caller : String) (params : Params CellSpawnParams) :
    Final (SpawnsOn caller params) := by
  rintro _ i s code' t ⟨task, p, chosen, _, _, rfl⟩ ran
  exact ⟨_, (spawnOn_step ran).2⟩

omit [Platform] in
/-- The move that answers a spawn records it with its target and what it did. -/
structure Spawning (caller : String) (p : CellSpawnParams) (threadId : String) (replayed : Bool)
    (before after : World) (target : Target) : Prop where
  aimed : Targets p target
  marked : ∃ task call, after.history = .spawned task call :: before.history ∧ call.target = target
  row : ∃ row ∈ after.store.spawnRequests,
    row.is caller target.cellName p.idempotencyKey = true ∧ row.crewdThreadId = threadId
  created : replayed = false →
    (∀ row ∈ before.store.spawnRequests,
      row.is caller target.cellName p.idempotencyKey = false) ∧
    after.store.rows = (before.store.rows.1 + 1, before.store.rows.2 + 1)
  again : replayed = true → after.store.rows = before.store.rows

theorem spawning_move {w : World} {b b' : FabricConfig} {params : Params CellSpawnParams}
    (blank : Blank w) (reached : service.Reaches w b) (moved : service.next b (.run task x) = some b')
    (parsed : params.parsed = .ok p) (answered : b'.pool[task]? =
      some (.spawn caller params, some (.done (.ok (.spawned threadId replayed))))) :
    ∃ target, Spawning caller p threadId replayed b.shared b'.shared target := by
  obtain ⟨code, _, ⟨k, p', chosen, parsed', aimed, rfl⟩, ran⟩ := System.deciding_move
    (spawnsOn_final caller params) (fun k => handleSpawn_decides k caller params) reached moved
    answered fun failed => failed _ rfl
  cases parsed.symm.trans parsed'
  obtain ⟨shared, answer⟩ := spawnOn_step ran
  have good : Good (b.shared.install x) := by
    have still : Steps .world b.shared (b.shared.install x) :=
      .single (.calm (.quiet (b.shared.quiet_install x)))
    exact still.good (good_reachable blank reached)
  have met : Meets Calm (·.At _) (spawnAndRecord k caller chosen.1 p.idempotencyKey p.task chosen.2)
    _ := spawnAndRecord_meets good
  have done := (met _ (World.at_snapshot _)).2
  cases result : ((spawnAndRecord k caller chosen.1 p.idempotencyKey p.task chosen.2).exec
    (b.shared.install x)).1 with
  | error e =>
    rw [result] at answer
    cases answer
  | ok r =>
    rw [result] at answer
    cases answer
    obtain ⟨call, v, after, is, outcome⟩ := done r result
    rw [← shared] at after
    refine ⟨chosen.1, aimed, ⟨k, call, ?_, is.target⟩, ?_, fun fresh => ?_, fun again => ?_⟩
    · rw [after, outcome.history]
      rfl
    · rw [after]
      exact outcome.row
    · rw [after]
      exact outcome.created fresh
    · rw [after]
      exact outcome.replayed again

end Deciding

/-- Two successful calls of one caller with the same arguments: the later one replays the
earlier one, and adds nothing, exactly when both have come to the same cell. -/
theorem spawn_idempotent_iff [Platform] {w : World} {b₁ b₁' b₂ b₂' : FabricConfig}
    {params : Params CellSpawnParams} (blank : Blank w) (reached : service.Reaches w b₁)
    (moved₁ : service.next b₁ (.run i x) = some b₁') (later : service.Leads b₁' b₂)
    (moved₂ : service.next b₂ (.run j y) = some b₂') (parsed : params.parsed = .ok p)
    (answered₁ : b₁'.pool[i]? =
      some (.spawn caller params, some (.done (.ok (.spawned thread₁ replayed₁)))))
    (answered₂ : b₂'.pool[j]? =
      some (.spawn caller params, some (.done (.ok (.spawned thread₂ replayed₂))))) :
    ∃ first second, Spawning caller p thread₁ replayed₁ b₁.shared b₁'.shared first ∧
      Spawning caller p thread₂ replayed₂ b₂.shared b₂'.shared second ∧
      ((thread₂ = thread₁ ∧ replayed₂ = true ∧ b₂'.shared.store.rows = b₂.shared.store.rows) ↔
        SameTarget first second) := by
  obtain ⟨first, spawning₁⟩ := spawning_move blank reached moved₁ parsed answered₁
  have between := (reached.next moved₁).trans _ later
  obtain ⟨second, spawning₂⟩ := spawning_move blank between moved₂ parsed answered₂
  refine ⟨first, second, spawning₁, spawning₂, ?_⟩
  obtain ⟨row₁, stored₁, is₁, named₁⟩ := spawning₁.row
  obtain ⟨row₂, stored₂, is₂, named₂⟩ := spawning₂.row
  have kept : row₁ ∈ b₂.shared.store.spawnRequests :=
    lasting (P := fun s => row₁ ∈ s.store.spawnRequests) blank (reached.next moved₁)
      (fun _ _ _ step _ member => step.grows.requests _ member) stored₁ later
  have there : row₁ ∈ b₂'.shared.store.spawnRequests :=
    lasting (P := fun s => row₁ ∈ s.store.spawnRequests) blank between
      (fun _ _ _ step _ member => step.grows.requests _ member) kept (.next (.refl _) moved₂)
  have inv := (good_reachable blank (between.next moved₂)).1
  rw [← cellName_eq_iff spawning₁.aimed spawning₂.aimed]
  constructor
  · rintro ⟨same, _, _⟩
    obtain ⟨t₁, thread₁, id₁, cell₁⟩ := inv.requestLinked row₁ there
    obtain ⟨t₂, thread₂, id₂, cell₂⟩ := inv.requestLinked row₂ stored₂
    have one : t₁ = t₂ := inv.thread_unique thread₁ thread₂
      (by rw [id₁, id₂, named₁, named₂, same])
    have in₁ := (of_decide_eq_true is₁).2.1
    have in₂ := (of_decide_eq_true is₂).2.1
    rw [← in₁, ← in₂, ← cell₁, ← cell₂, one]
  · intro same
    have again : replayed₂ = true := by
      by_contra fresh
      have unbound := (spawning₂.created (by simpa using fresh)).1 row₁ kept
      rw [← same, is₁] at unbound
      cases unbound
    refine ⟨?_, again, spawning₂.again again⟩
    rw [← same] at is₂
    rw [← named₁, ← named₂, inv.request_unique there stored₂ is₁ is₂]

section Sample

/-- The target of the spawn that was recorded last. -/
def lastTarget : List Mark → Option Target
  | .spawned _ call :: _ => some call.target
  | _ => none

theorem Spawning.target_eq {before after : World} {p : CellSpawnParams} {target known : Target}
    (spawning : Spawning caller p threadId replayed before after target)
    (last : lastTarget after.history = some known) : target = known := by
  obtain ⟨task, call, history, rfl⟩ := spawning.marked
  rw [history] at last
  exact Option.some.inj last

def spawnParams (cell engine : Option String) : Params CellSpawnParams :=
  ⟨["task", "idempotency_key"], .ok ⟨cell, engine, none, none, none, none, "review", "k1"⟩⟩

def spawnCall (cell engine : Option String) : Request := .spawn "coder" (spawnParams cell engine)

/-- The same spawn twice, each up to its last section and then answered. -/
def twice (cell engine : Option String) (count : Nat) : Option (FabricConfig × FabricConfig ×
    FabricConfig × FabricConfig × FabricConfig × FabricConfig × FabricConfig) := do
  let c ← (sampleService.runs (System.dormant blankWorld)
    [start 1783242000, .event (.cellRegistered reviewer)] : Option FabricConfig)
  let c₁ ← sampleService.next c (.call (spawnCall cell engine))
  let b₁ ← sampleService.runs c₁ (sections 0 count 1783242001)
  let b₁' ← sampleService.next b₁ (.run 0 (moment 1783242001))
  let c₂ ← sampleService.next b₁' (.call (spawnCall cell engine))
  let b₂ ← sampleService.runs c₂ (sections 1 count 1783242002)
  let b₂' ← sampleService.next b₂ (.run 1 (moment 1783242002))
  pure (c, c₁, b₁, b₁', c₂, b₂, b₂')

theorem twice_moves {c c₁ b₁ b₁' c₂ b₂ b₂' : FabricConfig}
    (ran : twice cell engine count = some (c, c₁, b₁, b₁', c₂, b₂, b₂')) :
    sampleService.Reaches blankWorld c ∧
    sampleService.next c (.call (spawnCall cell engine)) = some c₁ ∧ sampleService.Leads c₁ b₁ ∧
    sampleService.next b₁ (.run 0 (moment 1783242001)) = some b₁' ∧
    sampleService.next b₁' (.call (spawnCall cell engine)) = some c₂ ∧ sampleService.Leads c₂ b₂ ∧
    sampleService.next b₂ (.run 1 (moment 1783242002)) = some b₂' := by
  simp only [twice, Option.bind_eq_bind, Option.bind_eq_some_iff, Option.pure_def,
    Option.some.injEq, Prod.mk.injEq] at ran
  obtain ⟨_, first, _, called, _, on, _, moved, _, called', _, on', _, moved', rfl, rfl, rfl, rfl, rfl,
    rfl, rfl⟩ := ran
  exact ⟨System.leads_of_runs _ first, called, System.leads_of_runs _ on, moved, called',
    System.leads_of_runs _ on', moved'⟩

/-- What the two spawns answered, and their targets. -/
def Answered (c b₁' b₂' : FabricConfig) (thread₁ thread₂ : String) (replayed : Bool)
    (first second : Target) : Prop :=
  c.pool.length = 0 ∧ b₁'.pool.length = 1 ∧
  b₁'.answer 0 = some (.ok (.spawned thread₁ false)) ∧
  b₂'.answer 1 = some (.ok (.spawned thread₂ replayed)) ∧
  lastTarget b₁'.shared.history = some first ∧ lastTarget b₂'.shared.history = some second

instance : Decidable (Answered c b₁' b₂' thread₁ thread₂ replayed first second) :=
  inferInstanceAs (Decidable (_ ∧ _))

theorem spawn_idempotent_iff_named : ∃ b₁' b₂ b₂' thread₁ thread₂ replayed,
    sampleService.Leads b₁' b₂ ∧ sampleService.next b₂ (.run 1 (moment 1783242002)) = some b₂' ∧
    b₁'.answer 0 = some (.ok (.spawned thread₁ false)) ∧
    b₂'.answer 1 = some (.ok (.spawned thread₂ replayed)) ∧
    thread₂ = thread₁ ∧ replayed = true ∧ b₂'.shared.store.rows = b₂.shared.store.rows := by
  let _ := Platform.sample
  have ran : (twice (some "reviewer") none 2).map (fun r => decide (Answered r.1 r.2.2.2.1
      r.2.2.2.2.2.2 firstThread firstThread true (.named "reviewer") (.named "reviewer"))) =
        some true := by
    decide +kernel
  obtain ⟨⟨c, c₁, b₁, b₁', c₂, b₂, b₂'⟩, run, facts⟩ := Option.map_eq_some_iff.mp ran
  obtain ⟨first, second, answered₁, answered₂, target₁, target₂⟩ := of_decide_eq_true facts
  obtain ⟨reached, called, path, moved, called', path', moved'⟩ := twice_moves run
  have there := (reached.next called).trans _ path
  have finished₁ := System.answered_call called (path.next moved) (first.symm ▸ answered₁)
  have finished₂ := System.answered_call called' (path'.next moved') (second.symm ▸ answered₂)
  obtain ⟨_, _, aim₁, aim₂, iff⟩ := spawn_idempotent_iff blankWorld_blank there moved
    ((System.Leads.next (.refl _) called').trans _ path') moved' rfl (first ▸ finished₁)
    (second ▸ finished₂)
  refine ⟨b₁', b₂, b₂', _, _, _, (System.Leads.next (.refl _) called').trans _ path', moved', answered₁,
    answered₂, iff.mpr ?_⟩
  rw [aim₁.target_eq target₁, aim₂.target_eq target₂]
  rfl

/-- Two calls for an ephemeral cell with one key make two threads. -/
theorem ephemeral_spawn_is_repeated : ∃ b₁' b₂' thread₁ thread₂,
    sampleService.Reaches blankWorld b₁' ∧ sampleService.Leads b₁' b₂' ∧
    b₁'.pool[0]? = some (spawnCall none (some "fake"), some (.done (.ok (.spawned thread₁ false)))) ∧
    b₂'.pool[1]? = some (spawnCall none (some "fake"), some (.done (.ok (.spawned thread₂ false)))) ∧
    thread₁ ≠ thread₂ ∧ b₂'.shared.store.rows = (2, 2) := by
  let _ := Platform.sample
  have ran : (twice none (some "fake") 2).map (fun r => decide (
      r.1.pool.length = 0 ∧ r.2.2.2.1.pool.length = 1 ∧
      r.2.2.2.1.answer 0 =
        some (.ok (.spawned "0197d8a0-0000-7000-8000-000000000001" false)) ∧
      r.2.2.2.2.2.2.answer 1 =
        some (.ok (.spawned "0197d8a0-0000-7000-8000-000000000004" false)) ∧
      r.2.2.2.2.2.2.shared.store.rows = (2, 2))) = some true := by
    decide +kernel
  obtain ⟨⟨c, c₁, b₁, b₁', c₂, b₂, b₂'⟩, run, facts⟩ := Option.map_eq_some_iff.mp ran
  obtain ⟨first, second, answered₁, answered₂, rows⟩ := of_decide_eq_true facts
  obtain ⟨reached, called, path, moved, called', path', moved'⟩ := twice_moves run
  have finished₁ := System.answered_call called (path.next moved) (first.symm ▸ answered₁)
  have finished₂ := System.answered_call called' (path'.next moved') (second.symm ▸ answered₂)
  refine ⟨b₁', b₂', _, _, ((reached.next called).trans _ path).next moved,
    ((System.Leads.next (.refl _) called').trans _ path').next moved', first ▸ finished₁,
    second ▸ finished₂, by decide, rows⟩

end Sample
end Crewd.Fabric
