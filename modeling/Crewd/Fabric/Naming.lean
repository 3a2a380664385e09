import Crewd.Fabric.Births

/-! Spawns that name a cell. The name is looked up in one section and the thread made in a
later one, with what was found; a name that is not found makes the spawn an ephemeral one. -/
namespace Crewd.Fabric
open Autocommit Concurrent

def CellDef.settings (d : CellDef) : EngineKind × Option String × Option String × String :=
  (d.engine, d.model, d.profile, d.cwd)

def CellThread.settings (t : CellThread) : EngineKind × Option String × Option String × String :=
  (t.engineKind, t.model, t.profile, t.cwd)

/-- The thread is on the cell, as the registry had the cell when the thread was made. -/
def IsOn (cell id : String) (made : World) (c : FabricConfig) : Prop :=
  ∃ t ∈ c.shared.store.threads, t.crewdThreadId = id ∧ t.cellName = cell ∧
    ∃ d, made.store.cell cell = some d ∧ t.settings = d.settings

/-- The call found the cell in the registry. -/
def Known (cell : String) (stages : List (Stage World (Input Outside))) : Prop :=
  ∃ check lookup rest d, visited stages = check :: lookup :: rest ∧
    lookup.2.store.cell cell = some d

/-- The cell is registered with the same settings when the thread is made as it was found. -/
def Steady (cell : String) (stages : List (Stage World (Input Outside))) : Prop :=
  ∃ check lookup making d d', visited stages = [check, lookup, making] ∧
    lookup.2.store.cell cell = some d ∧ making.2.store.cell cell = some d' ∧
    d.settings = d'.settings

theorem ephemeral_ne {cell : String} (uuid : String) (plain : ¬ ['~'] <+: cell.toList) :
    ephemeralCellName uuid ≠ cell := by
  intro same
  apply plain
  rw [← same]
  exact ephemeralCellName_reserved uuid

section Calls
variable {cell : String} {p : CellSpawnParams} {chosen : Target × Launch}
  {before : List (Stage World (Input Outside))}

/-- A spawn that names a cell has it for target exactly when it found the cell. -/
theorem Chose.target_iff {more : List (Stage World (Input Outside))}
    (chose : Chose p (visited before) chosen) (names : p.cell = some cell) :
    ¬ ['~'] <+: cell.toList ∧ (chosen.1.cellName = cell ↔ Known cell (before ++ more)) := by
  have visits : visited (before ++ more) = visited before ++ visited more := List.map_append
  rw [Known, visits]
  generalize visited before = found at chose
  cases chose with
  | named check lookup d named plain known =>
    obtain rfl := Option.some.inj (names.symm.trans named)
    exact ⟨plain, fun _ => ⟨check, lookup, _, d, rfl, known⟩, fun _ => rfl⟩
  | unknown check lookup mint c uuid engine named plain none =>
    obtain rfl := Option.some.inj (names.symm.trans named)
    refine ⟨plain, fun same => absurd same (ephemeral_ne uuid plain), ?_⟩
    rintro ⟨check', lookup', rest, d, same, known⟩
    cases same
    rw [none] at known
    cases known
  | ephemeral check mint uuid engine unnamed =>
    rw [names] at unnamed
    cases unnamed

variable [Platform] {w : World} {c c' : FabricConfig} {task : Nat} {caller id : String}
  {params : Params CellSpawnParams} {stages : List (Stage World (Input Outside))}

/-- The thread that a call has made on the cell carries the settings of the cell exactly when
the registry kept those that the call found. -/
theorem isOn_iff_steady (blank : Blank w) (took : service.Took w task (.spawn caller params) stages
      (.ok (.spawned id false)) c') (later : service.Leads c' c)
    (stored : t ∈ c.shared.store.threads) (named : t.crewdThreadId = id) (on : t.cellName = cell)
    (plain : ¬ ['~'] <+: cell.toList) : ∃ before making, stages = before ++ [making] ∧
      (IsOn cell id making.before c ↔ Steady cell stages) := by
  obtain ⟨p, before, making, chosen, _, chose, rfl, _, makes⟩ := took_makes took
  refine ⟨before, making, rfl, ?_⟩
  obtain ⟨b, b', there, ⟨stepped, here, here'⟩, between, _⟩ := took.went.split
  rw [← here'] at makes
  have inv := (good_reachable blank ((there.next stepped).trans _ (between.trans _ later))).1
  obtain ⟨target, launch⟩ :=
    makes.stays blank (there.next stepped) (between.trans _ later) stored named
  have visits : visited (before ++ [making]) = visited before ++ [(making.input, making.before)] :=
    List.map_append
  rw [Steady, visits]
  generalize visited before = found at chose
  cases chose with
  | named check lookup d _ _ known =>
    obtain rfl : d.name = cell := target.symm.trans on
    have settings : t.settings = d.settings := by
      simp only [CellThread.launch, Launch.mk.injEq] at launch
      obtain ⟨engine, model, profile, cwd, _⟩ := launch
      simp only [CellThread.settings, CellDef.settings, engine, model, profile, cwd]
    constructor
    · rintro ⟨t', stored', named', _, d', held, same⟩
      obtain rfl := inv.thread_unique stored' stored (named'.trans named.symm)
      exact ⟨check, lookup, _, d, d', rfl, known, held, settings.symm.trans same⟩
    · rintro ⟨check', lookup', making', d₁, d', same, known', held, kept⟩
      cases same
      obtain rfl := Option.some.inj (known.symm.trans known')
      exact ⟨t, stored, named, on, d', held, settings.trans kept⟩
  | unknown check lookup mint c uuid engine _ _ _ =>
    exact absurd (target.symm.trans on) (ephemeral_ne uuid plain)
  | ephemeral check mint uuid engine _ =>
    exact absurd (target.symm.trans on) (ephemeral_ne uuid plain)

/-- A thread of a state that leads to another is there as well. -/
theorem thread_kept {b : FabricConfig} (reached : service.Reaches w b) (later : service.Leads b c)
    (stored : t ∈ b.shared.store.threads) : ∃ t' ∈ c.shared.store.threads,
      t'.crewdThreadId = t.crewdThreadId ∧ t'.cellName = t.cellName := by
  obtain ⟨t', still, fixed⟩ := (run_retains reached later).threads t stored
  obtain ⟨id, cell, _⟩ := CellThread.fixed_inj fixed
  exact ⟨t', still, id, cell⟩

/-- The thread that a call is answered with is on its target, and was made by this call or,
for a replay, by an earlier one. -/
theorem took_thread {replayed : Bool} (blank : Blank w)
    (took : service.Took w task (.spawn caller params) stages (.ok (.spawned id replayed)) c) :
    ∃ p before making chosen task' caller' params' stages' c', params.parsed = .ok p ∧
      Chose p (visited before) chosen ∧ stages = before ++ [making] ∧
      service.Took w task' (.spawn caller' params') stages' (.ok (.spawned id false)) c' ∧
      service.Leads c' c ∧ (replayed = false → stages' = stages) ∧
      (replayed = true → Untouched stages) ∧
      ∃ t ∈ c.shared.store.threads, t.crewdThreadId = id ∧ t.cellName = chosen.1.cellName := by
  cases replayed with
  | false =>
    obtain ⟨p, before, making, chosen, parsed, chose, rfl, _, makes⟩ := took_makes took
    obtain ⟨b, b', there, ⟨stepped, _, after⟩, later, _⟩ := took.went.split
    rw [← after] at makes
    obtain ⟨t, stored, named, on, _⟩ := makes.thread
    obtain ⟨t', still, same, cell⟩ := thread_kept (there.next stepped) later stored
    exact ⟨p, before, making, chosen, task, caller, params, _, c, parsed, chose, rfl, took, .refl c,
      fun _ => rfl, (nomatch ·), t', still, same.trans named, cell.trans on⟩
  | true =>
    rcases handleSpawn_takes took.takes with
      ⟨e, failed, _⟩ |
      ⟨p, before, i, x, chosen, ⟨thread, _⟩, parsed, chose, rfl, untouched, ran, ended⟩
    · cases failed
    · cases ended
      have result : SpawnResult task caller p.idempotencyKey p.task chosen.1 chosen.2
        (x.install i) _ _ := spawnAndRecord_result (x.install i)
      rw [ran] at result
      cases result with
      | again _ row same stored listed keyed linked =>
        obtain ⟨b, b', there, ⟨stepped, before', _⟩, later, _⟩ := took.went.split
        have known : thread ∈ b.shared.store.threads := by
          rw [before']
          exact stored
        have asked : row ∈ b.shared.store.spawnRequests := by
          rw [before']
          exact listed
        have inv := (good_reachable blank there).1
        obtain ⟨t, stored', named, cell⟩ := inv.requestLinked row asked
        obtain rfl := inv.thread_unique stored' known (named.trans linked)
        have target : row.cellName = chosen.1.cellName := (of_decide_eq_true keyed).2.1
        obtain ⟨t', still, sameId, sameCell⟩ :=
          thread_kept there ((System.Leads.next (.refl b) stepped).trans _ later) known
        obtain ⟨task', caller', params', stages', c', took', on⟩ := thread_born blank there known
        refine ⟨p, before, _, chosen, task', caller', params', stages', c', parsed, chose, rfl,
          took', on.trans _ ((System.Leads.next (.refl b) stepped).trans _ later), (nomatch ·),
          fun _ => untouched.append (.single same), t', still, sameId, ?_⟩
        exact sameCell.trans (cell.trans target)

end Calls

/-- A call that names a cell fails without a change of the tables, or is answered with a
thread. The thread is on the cell and carries its settings exactly when the call found the
cell and the registry kept them from the lookup of the call that made the thread on. -/
theorem naming_cell_iff [Platform] {w : World} {c : FabricConfig} {task : Nat}
    {caller cell : String} {params : Params CellSpawnParams} {p : CellSpawnParams}
    {stages : List (Stage World (Input Outside))} {answer : Except BusError Answer}
    (blank : Blank w) (took : service.Took w task (.spawn caller params) stages answer c)
    (parsed : params.parsed = .ok p) (names : p.cell = some cell) :
    (∃ e, answer = .error e ∧ Untouched stages) ∨
    ∃ id replayed task' caller' params' before making c', answer = .ok (.spawned id replayed) ∧
      service.Took w task' (.spawn caller' params') (before ++ [making])
        (.ok (.spawned id false)) c' ∧
      service.Leads c' c ∧ (replayed = false → before ++ [making] = stages) ∧
      (replayed = true → Untouched stages) ∧
      (IsOn cell id making.before c ↔ Known cell stages ∧ Steady cell (before ++ [making])) := by
  rcases handleSpawn_takes took.takes with
    failed | ⟨_, _, _, _, _, ⟨thread, replayed⟩, _, _, _, _, _, rfl⟩
  · exact .inl failed
  · obtain ⟨p', found, last, chosen, task', caller', params', stages', c', parsed', chose, rfl,
      made, later, first, again, t, stored, named, on⟩ := took_thread blank took
    cases parsed.symm.trans parsed'
    obtain ⟨plain, target⟩ : _ ∧ (chosen.1.cellName = cell ↔ Known cell (found ++ [last])) :=
      chose.target_iff names
    by_cases hit : chosen.1.cellName = cell
    · obtain ⟨before, making, rfl, steady⟩ :=
        isOn_iff_steady blank made later stored named (on.trans hit) plain
      right
      refine ⟨_, replayed, task', caller', params', before, making, c', rfl, made, later, first,
        again, ?_⟩
      rw [steady]
      exact (and_iff_right (target.mp hit)).symm
    · obtain ⟨_, before, making, _, _, _, rfl, _⟩ := took_makes made
      right
      refine ⟨_, replayed, task', caller', params', before, making, c', rfl, made, later, first,
        again, ?_⟩
      constructor
      · rintro ⟨t', stored', named', on', _⟩
        have inv := (good_reachable blank took.went.reached).1
        obtain rfl := inv.thread_unique stored' stored (named'.trans named.symm)
        exact absurd (on.symm.trans on') hit
      · exact fun ⟨known, _⟩ => absurd (target.mpr known) hit

section Sample

theorem naming_cell_iff_named : ∃ stages c before making,
    sampleService.Took blankWorld 0 (spawnCall (some "reviewer") none) stages
      (.ok (.spawned firstThread false)) c ∧
    stages = before ++ [making] ∧ IsOn "reviewer" firstThread making.before c := by
  let _ := Platform.sample
  have ran : ((sampleService.visit blankWorld 0
      [start 1783242000, .event (.cellRegistered reviewer)] (spawnCall (some "reviewer") none)
      (sections 0 3 1783242001)).map fun visit => (visit.2.answer 0,
        (visited visit.1).map fun stage => stage.2.store.cell "reviewer")) =
        some (some (.ok (.spawned firstThread false)), List.replicate 3 (some reviewer)) := by
    decide +kernel
  obtain ⟨⟨stages, c⟩, taken, facts⟩ := Option.map_eq_some_iff.mp ran
  obtain ⟨answered, cells⟩ := Prod.mk.inj facts
  have took := System.took_of_visit taken answered
  obtain ⟨check, _, seen, _, cells⟩ := List.map_eq_cons_iff.mp cells
  obtain ⟨lookup, _, rfl, known, cells⟩ := List.map_eq_cons_iff.mp cells
  obtain ⟨last, _, rfl, held, cells⟩ := List.map_eq_cons_iff.mp cells
  obtain rfl := List.map_eq_nil_iff.mp cells
  rcases naming_cell_iff blankWorld_blank took rfl rfl with
    ⟨_, failed, _⟩ | ⟨_, _, _, _, _, before, making, _, answer, _, _, first, _, on⟩
  · cases failed
  · cases answer
    obtain rfl := first rfl
    exact ⟨_, c, before, making, took, rfl, on.mpr
      ⟨⟨check, lookup, [last], reviewer, seen, known⟩,
        check, lookup, last, reviewer, reviewer, seen, known, held, rfl⟩⟩

/-- A call that names no registered cell is answered with a thread on an ephemeral one. -/
theorem unknown_cell_spawns : ∃ stages id c,
    sampleService.Took blankWorld 0 (spawnCall (some "ghost") (some "fake")) stages
      (.ok (.spawned id false)) c ∧
    (∃ t ∈ c.shared.store.threads, t.crewdThreadId = id) ∧ ∀ made, ¬ IsOn "ghost" id made c := by
  let _ := Platform.sample
  have ran : ((sampleService.visit blankWorld 0 [start 1783242000]
      (spawnCall (some "ghost") (some "fake")) (sections 0 4 1783242001)).map fun visit =>
        (visit.2.answer 0, visit.2.shared.store.threads.map fun t =>
          (t.crewdThreadId, t.cellName))) =
        some (some (.ok (.spawned "0197d8a0-0000-7000-8000-000000000001" false)),
          [("0197d8a0-0000-7000-8000-000000000001", "~ephemeral-00000000")]) := by
    decide +kernel
  obtain ⟨⟨stages, c⟩, taken, facts⟩ := Option.map_eq_some_iff.mp ran
  obtain ⟨answered, threads⟩ := Prod.mk.inj facts
  obtain ⟨t, rest, stored, only, threads⟩ := List.map_eq_cons_iff.mp threads
  obtain rfl := List.map_eq_nil_iff.mp threads
  obtain ⟨id, cell⟩ := Prod.mk.inj only
  refine ⟨stages, _, c, System.took_of_visit taken answered,
    ⟨t, stored ▸ List.mem_cons_self, id⟩, ?_⟩
  rintro made ⟨t', stored', _, on, _⟩
  rw [stored] at stored'
  obtain rfl := List.mem_singleton.mp stored'
  exact absurd (cell.symm.trans on) (by decide)

end Sample
end Crewd.Fabric
