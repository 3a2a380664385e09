import Crewd.Fabric.Births
import Crewd.Fabric.Cancelling

/-! The cells that a tick starts turns on: the registered ones, then those outside the
registry that have a queued job, each as the latest thread on it was launched. -/
namespace Crewd.Fabric
open Autocommit Concurrent

section Names
variable {st : Store}

theorem startable_reads {w : World} (listed : (startable.exec w).1 = .ok defs) :
    defs = w.store.cellListDefs ++ w.store.ephemeralStartableDefs := by
  have met : Meets (fun _ _ => True) (·.At w.snapshot) startable
      fun defs _ => defs = w.store.cellListDefs ++ w.store.ephemeralStartableDefs := by
    have quiet : ∀ w w' : World, w.Quiet w' → True := fun _ _ _ => trivial
    apply Meets.bind (meets_query quiet _)
    intro registered
    apply meets_from
    rintro _ ⟨here, rfl⟩
    refine ⟨_, here, ?_⟩
    apply Meets.bind (meets_query quiet _)
    rintro ephemeral
    apply Meets.pure
    rintro _ ⟨_, rfl⟩
    rfl
  exact (met w w.at_snapshot).2 defs listed

theorem mem_cellListDefs {d : CellDef} : d ∈ st.cellListDefs ↔ d ∈ st.cells :=
  List.mem_insertionSort _

/-- The threads outside the registry on whose cells a job is queued. -/
def Store.waiting (st : Store) : List CellThread := st.threads.filter fun t =>
  !st.cells.any (·.name = t.cellName) ∧ st.jobs.any fun j => j.cellName = t.cellName ∧ j.state = .queued

theorem mem_waiting {t : CellThread} : t ∈ st.waiting ↔ t ∈ st.threads ∧
    (∀ d ∈ st.cells, d.name ≠ t.cellName) ∧
    ∃ j ∈ st.jobs, j.cellName = t.cellName ∧ j.state = .queued := by
  simp [Store.waiting]

def Store.waitingNames (st : Store) : List String :=
  (st.waiting.map (·.cellName)).dedup.insertionSort (· ≤ ·)

theorem ephemeralStartableDefs_eq : st.ephemeralStartableDefs = st.waitingNames.filterMap fun name =>
    (latest (st.waiting.filter (·.cellName = name))).map CellThread.toDef := rfl

theorem mem_waitingNames {name : String} :
    name ∈ st.waitingNames ↔ ∃ t ∈ st.waiting, t.cellName = name := by
  rw [Store.waitingNames, List.mem_insertionSort, List.mem_dedup, List.mem_map]

/-- An entry is a thread of its cell. -/
theorem mem_ephemeralStartableDefs {d : CellDef} (listed : d ∈ st.ephemeralStartableDefs) :
    ∃ t ∈ st.waiting, d = t.toDef := by
  rw [ephemeralStartableDefs_eq] at listed
  obtain ⟨name, _, found⟩ := List.mem_filterMap.mp listed
  obtain ⟨t, last, rfl⟩ := Option.map_eq_some_iff.mp found
  exact ⟨t, (List.mem_filter.mp (latest_mem last)).1, rfl⟩

/-- Each chosen value leads back to where it was chosen for. -/
theorem filterMap_sublist {α β : Type} {f : α → Option β} {g : β → α} {keys : List α}
    (back : ∀ a b, f a = some b → g b = a) : ((keys.filterMap f).map g).Sublist keys := by
  induction keys with
  | nil => exact .refl _
  | cons a rest ih =>
    cases found : f a with
    | none =>
      rw [List.filterMap_cons_none found]
      exact ih.cons a
    | some b =>
      rw [List.filterMap_cons_some found, List.map_cons, back a b found]
      exact ih.cons_cons a

theorem latest_name {name : String} {d : CellDef}
    (found : (latest (st.waiting.filter (·.cellName = name))).map CellThread.toDef = some d) :
    d.name = name := by
  obtain ⟨t, last, rfl⟩ := Option.map_eq_some_iff.mp found
  exact of_decide_eq_true (List.mem_filter.mp (latest_mem last)).2

theorem ephemeralStartableDefs_once : (st.ephemeralStartableDefs.map (·.name)).Nodup := by
  have names : st.waitingNames.Nodup := by
    apply (List.perm_insertionSort _ _).nodup_iff.mpr
    exact List.nodup_dedup _
  rw [ephemeralStartableDefs_eq]
  exact List.Nodup.sublist (filterMap_sublist fun _ _ found => latest_name found) names

/-- Registered cells are listed once, and the others apart from them. -/
theorem startList_once (once : (st.cells.map (·.name)).Nodup) :
    ((st.cellListDefs ++ st.ephemeralStartableDefs).map (·.name)).Nodup := by
  rw [List.map_append]
  apply List.Nodup.append _ ephemeralStartableDefs_once
  · intro name registered unregistered
    obtain ⟨d, listed, rfl⟩ := List.mem_map.mp registered
    obtain ⟨d', startable, same⟩ := List.mem_map.mp unregistered
    obtain ⟨t, waits, rfl⟩ := mem_ephemeralStartableDefs startable
    exact (mem_waiting.mp waits).2.1 d (mem_cellListDefs.mp listed) same.symm
  · exact ((List.perm_insertionSort _ _).map _).nodup_iff.mpr once

theorem waiting_listed {t : CellThread} (waits : t ∈ st.waiting) :
    ∃ t' ∈ st.waiting, t'.cellName = t.cellName ∧ t'.toDef ∈ st.ephemeralStartableDefs := by
  have known : t ∈ st.waiting.filter (·.cellName = t.cellName) :=
    List.mem_filter.mpr ⟨waits, decide_eq_true rfl⟩
  cases found : latest (st.waiting.filter (·.cellName = t.cellName)) with
  | none =>
    rw [latest_eq_none.mp found] at known
    cases known
  | some t' =>
    obtain ⟨waits', same⟩ := List.mem_filter.mp (latest_mem found)
    refine ⟨t', waits', of_decide_eq_true same, ?_⟩
    rw [ephemeralStartableDefs_eq]
    exact List.mem_filterMap.mpr ⟨_, mem_waitingNames.mpr ⟨t, waits, rfl⟩, by rw [found]; rfl⟩

end Names

/-- The name that was minted for the thread of the call. -/
def Mark.mintedName : Mark → Option String
  | .spawned _ call =>
    match call.replayed, call.target with
    | false, .ephemeral uuid => some (ephemeralCellName uuid)
    | _, _ => none
  | _ => none

/-- No name of an ephemeral cell was minted twice. -/
def FreshNames (history : List Mark) : Prop :=
  history.Pairwise fun a b => a.mintedName = none ∨ a.mintedName ≠ b.mintedName

instance (history : List Mark) : Decidable (FreshNames history) :=
  inferInstanceAs (Decidable (List.Pairwise _ _))

theorem FreshNames.mark_unique {history : List Mark} (fresh : FreshNames history) {a b : Mark}
    {name : String} (first : a ∈ history) (second : b ∈ history) (named : a.mintedName = some name)
    (named' : b.mintedName = some name) : a = b := by
  induction history with
  | nil => cases first
  | cons mark rest ih =>
    obtain ⟨here, later⟩ := List.pairwise_cons.mp fresh
    have alone : mark.mintedName = some name → ∀ other ∈ rest, other.mintedName ≠ some name := by
      intro minted other member again
      rcases here other member with absent | differ
      · rw [minted] at absent
        cases absent
      · exact differ (minted.trans again.symm)
    rcases List.mem_cons.mp first with rfl | inside
    · rcases List.mem_cons.mp second with same | inside'
      · exact same.symm
      · exact absurd named' (alone named b inside')
    · rcases List.mem_cons.mp second with rfl | inside'
      · exact absurd named (alone named' a inside)
      · exact ih later inside inside'

section Runs
variable [Platform] {w : World} {c : FabricConfig}

/-- A cell outside the registry has one thread. -/
theorem unregistered_unique (blank : Blank w) (reached : service.Reaches w c)
    (fresh : FreshNames c.shared.history) (first : t ∈ c.shared.store.threads)
    (second : t' ∈ c.shared.store.threads) (same : t.cellName = t'.cellName)
    (outside : ∀ d ∈ c.shared.store.cells, d.name ≠ t.cellName) : t = t' := by
  obtain ⟨task, call, uuid, marked, target, made, named, cell⟩ :=
    unregistered_minted blank reached first outside
  obtain ⟨task', call', uuid', marked', target', made', named', cell'⟩ :=
    unregistered_minted blank reached second (same ▸ outside)
  have minted : (Mark.spawned task call).mintedName = some t.cellName := by
    simp only [Mark.mintedName, made, target, cell]
  have minted' : (Mark.spawned task' call').mintedName = some t.cellName := by
    simp only [Mark.mintedName, made', target', same, cell']
  have one := fresh.mark_unique marked marked' minted minted'
  cases one
  exact (good_reachable blank reached).1.thread_unique first second (named.symm.trans named')

/-- The thread has had the engine ever since it was made. -/
def LaunchedWith (w : World) (c : FabricConfig) (threadId : String) (engine : EngineKind) : Prop :=
  (∃ t ∈ c.shared.store.threads, t.crewdThreadId = threadId) ∧
  ∀ b : FabricConfig, service.Reaches w b → service.Leads b c → ∀ t ∈ b.shared.store.threads,
    t.crewdThreadId = threadId → t.engineKind = engine

theorem launched_with (blank : Blank w) (reached : service.Reaches w c)
    (stored : t ∈ c.shared.store.threads) : LaunchedWith w c t.crewdThreadId t.engineKind := by
  refine ⟨⟨t, stored, rfl⟩, fun b there later t₀ old named => ?_⟩
  obtain ⟨kept, still, fixed⟩ := (run_retains there later).threads t₀ old
  obtain ⟨id, _, launch⟩ := CellThread.fixed_inj fixed
  have one := (good_reachable blank reached).1.thread_unique still stored (id.trans named)
  rw [← one]
  exact (congrArg Launch.engine launch).symm

/-- Where no ephemeral name was minted twice, a tick lists each cell once, and every cell
with a queued job, those outside the registry with the engine of the job's thread. -/
theorem no_queued_job_invisible (blank : Blank w) (reached : service.Reaches w c)
    (fresh : FreshNames c.shared.history)
    (listed : (startable.exec (c.shared.install i)).1 = .ok defs) :
    (defs.map (·.name)).Nodup ∧
    ∀ j ∈ c.shared.store.jobs, j.state = .queued → ∃ d ∈ defs, d.name = j.cellName ∧
      (d ∈ c.shared.store.cells ∨ (∀ d' ∈ c.shared.store.cells, d'.name ≠ j.cellName) ∧
        LaunchedWith w c j.crewdThreadId d.engine) := by
  have list := startable_reads listed
  change defs = c.shared.store.cellListDefs ++ c.shared.store.ephemeralStartableDefs at list
  subst list
  have once : (c.shared.store.cells.map (·.name)).Nodup := by
    apply (run_retains (.refl _) reached).once
    change (w.store.cells.map _).Nodup
    rw [blank.store]
    exact List.nodup_nil
  refine ⟨startList_once once, fun j stored queued => ?_⟩
  by_cases registered : ∃ d ∈ c.shared.store.cells, d.name = j.cellName
  · obtain ⟨d, member, name⟩ := registered
    exact ⟨d, List.mem_append_left _ (mem_cellListDefs.mpr member), name, .inl member⟩
  · have outside : ∀ d ∈ c.shared.store.cells, d.name ≠ j.cellName :=
      fun d member name => registered ⟨d, member, name⟩
    obtain ⟨t, thread, named, cell⟩ := (good_reachable blank reached).1.jobLinked j stored
    have waits : t ∈ c.shared.store.waiting :=
      mem_waiting.mpr ⟨thread, cell ▸ outside, j, stored, cell.symm, queued⟩
    obtain ⟨t', waits', same, startable⟩ := waiting_listed waits
    obtain ⟨thread', outside', _⟩ := mem_waiting.mp waits'
    obtain rfl := unregistered_unique blank reached fresh thread' thread same outside'
    refine ⟨t'.toDef, List.mem_append_right _ startable, cell, .inr ⟨outside, ?_⟩⟩
    rw [← named]
    exact launched_with blank reached thread

end Runs

section Sample

/-- A job of a registered cell and one of an ephemeral cell. -/
def bothQueued : List (Move (Input Outside) Request Event) :=
  start 1783242000 :: .event (.cellRegistered reviewer) :: spawning 0 "k1" 1783242000 ++
    .call (spawnCall none (some "fake")) :: sections 1 3 1783242001

theorem no_queued_job_invisible_both : ∃ c defs j d, sampleService.Reaches blankWorld c ∧
    (startable.exec (c.shared.install (moment 1783242002))).1 = .ok defs ∧
    (defs.map (·.name)).Nodup ∧ j ∈ c.shared.store.jobs ∧ j.state = .queued ∧ d ∈ defs ∧
    d.name = j.cellName ∧ (∀ d' ∈ c.shared.store.cells, d'.name ≠ j.cellName) ∧
    c.shared.store.cells ≠ [] := by
  let _ := Platform.sample
  have ran : (sampleService.runs (System.dormant blankWorld) bothQueued).map (fun c => decide (
      FreshNames c.shared.history ∧ c.shared.store.cells ≠ [] ∧
      (startable.exec (c.shared.install (moment 1783242002))).1.isOk = true ∧
      ∃ j ∈ c.shared.store.jobs, j.state = .queued ∧
        ∀ d' ∈ c.shared.store.cells, d'.name ≠ j.cellName)) = some true := by
    decide +kernel
  obtain ⟨c, run, facts⟩ := Option.map_eq_some_iff.mp ran
  obtain ⟨fresh, some, answers, j, stored, queued, outside⟩ := of_decide_eq_true facts
  have reached : sampleService.Reaches blankWorld c := System.leads_of_runs _ run
  cases listed : (startable.exec (c.shared.install (moment 1783242002))).1 with
  | error e =>
    rw [listed] at answers
    cases answers
  | ok defs =>
    obtain ⟨once, all⟩ := no_queued_job_invisible blankWorld_blank reached fresh listed
    obtain ⟨d, member, name, _⟩ := all j stored queued
    exact ⟨c, defs, j, d, reached, listed, once, stored, queued, member, name, outside, some⟩

end Sample
end Crewd.Fabric
