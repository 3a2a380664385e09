import Crewd.Fabric.Soundness

/-! Active threads of a cell. A spawn looks for them before it adds a thread; the
scheduler, which also starts the follow-up jobs of older threads, does not. -/
namespace Crewd.Fabric
open Autocommit Concurrent History Table

/-- The threads of the cell that are spawning or running. -/
def Store.activeThreads (st : Store) (cell : String) : List CellThread :=
  st.threads.filter fun t => t.cellName = cell ∧ t.state.active

/-- A thread that was not active is set running only while every other thread of
its cell is inactive. -/
def RunsAlone (_ : List Mark) : Mark → Prop
  | .moved _ source .running alone => source.active = true ∨ alone = true
  | _ => True

instance : Decidable (RunsAlone earlier mark) := by
  unfold RunsAlone
  split <;> infer_instance

section Single

/-- Active threads of one cell are one thread. -/
def Single (st : Store) : Prop := ∀ t ∈ st.threads, ∀ t' ∈ st.threads, t.cellName = t'.cellName →
  t.state.active = true → t'.state.active = true → t.crewdThreadId = t'.crewdThreadId

variable {st : Store} {id : String}

theorem Single.length_le (single : Single st) (once : (st.threads.map (·.crewdThreadId)).Nodup)
    (cell : String) : (st.activeThreads cell).length ≤ 1 := by
  have distinct : (st.activeThreads cell).Nodup := (List.Nodup.of_map _ once).filter _
  have same : ∀ t ∈ st.activeThreads cell, ∀ t' ∈ st.activeThreads cell, t = t' := by
    intro t member t' member'
    obtain ⟨stored, here⟩ := List.mem_filter.mp member
    obtain ⟨stored', here'⟩ := List.mem_filter.mp member'
    have facts := of_decide_eq_true here
    have facts' := of_decide_eq_true here'
    apply List.inj_on_of_nodup_map once stored stored'
    exact single t stored t' stored' (facts.1.trans facts'.1.symm) facts.2 facts'.2
  exact length_le_one distinct same

/-- Updates that leave the state and the cell of every thread alone. -/
theorem Single.column (single : Single st) {f : CellThread → CellThread} (keeps : Column f) :
    Single (st.updateThread id f) := by
  have back : ∀ t ∈ (st.updateThread id f).threads, ∃ old ∈ st.threads,
      t.crewdThreadId = old.crewdThreadId ∧ t.cellName = old.cellName ∧ t.state = old.state := by
    intro t member
    obtain ⟨old, stored, rfl⟩ := mem_updateThread.mp member
    refine ⟨old, stored, ?_⟩
    split
    · exact keeps old
    · exact ⟨rfl, rfl, rfl⟩
  intro t member t' member' sameCell active active'
  obtain ⟨old, stored, sameId, inCell, state⟩ := back t member
  obtain ⟨old', stored', sameId', inCell', state'⟩ := back t' member'
  rw [sameId, sameId']
  apply single old stored old' stored'
  · rw [← inCell, ← inCell', sameCell]
  · rw [← state, active]
  · rw [← state', active']

/-- A thread may become active where every other thread of its cell is inactive. -/
theorem Single.moved (single : Single st) {f : CellThread → CellThread}
    (keeps : ∀ t, (f t).crewdThreadId = t.crewdThreadId ∧ (f t).cellName = t.cellName)
    (alone : ∀ t ∈ st.threads, t.crewdThreadId = id → (f t).state.active = true →
      ∀ other ∈ st.threads, other.crewdThreadId ≠ id → other.cellName = t.cellName →
        other.state.active = false) : Single (st.updateThread id f) := by
  have apart : ∀ t ∈ st.threads, t.crewdThreadId = id → (f t).state.active = true →
      ∀ other ∈ st.threads, other.cellName = t.cellName → other.state.active = true →
        other.crewdThreadId = id := by
    intro t stored named active other stored' sameCell active'
    by_contra different
    have idle := alone t stored named active other stored' different sameCell
    rw [idle] at active'
    cases active'
  intro t member t' member' sameCell active active'
  obtain ⟨old, stored, rfl⟩ := mem_updateThread.mp member
  obtain ⟨old', stored', rfl⟩ := mem_updateThread.mp member'
  by_cases named : old.crewdThreadId = id <;> by_cases named' : old'.crewdThreadId = id
  · simp only [if_pos named, if_pos named', (keeps old).1, (keeps old').1]
    rw [named, named']
  · simp only [if_pos named, if_neg named', (keeps old).1, (keeps old).2] at sameCell active active' ⊢
    rw [named]
    exact (apart old stored named active old' stored' sameCell.symm active').symm
  · simp only [if_neg named, if_pos named', (keeps old').1, (keeps old').2] at sameCell active active' ⊢
    rw [named']
    exact apart old' stored' named' active' old stored sameCell active
  · simp only [if_neg named, if_neg named'] at sameCell active active' ⊢
    exact single old stored old' stored' sameCell active active'

/-- A new thread comes to a cell without active threads. -/
theorem Single.spawned (single : Single st) (spawns : Spawns st row thread job) :
    Single (st.spawn locks row thread job) := by
  intro t member t' member' sameCell active active'
  rcases List.mem_append.mp member with old | new <;> rcases List.mem_append.mp member' with old' | new'
  · exact single t old t' old' sameCell active active'
  · rw [List.mem_singleton.mp new'] at sameCell
    rw [spawns.free t old sameCell] at active
    cases active
  · rw [List.mem_singleton.mp new] at sameCell
    rw [spawns.free t' old' sameCell.symm] at active'
    cases active'
  · rw [List.mem_singleton.mp new, List.mem_singleton.mp new']

end Single

section Steps

theorem alone_spec {st : Store} {id : String} (alone : st.alone id = true) :
    ∀ t ∈ st.threads, t.crewdThreadId = id → ∀ other ∈ st.threads, other.crewdThreadId ≠ id →
      other.cellName = t.cellName → other.state.active = false := by
  intro t stored named other stored' different sameCell
  have outer := List.all_eq_true.mp alone t stored
  have inner := of_decide_eq_true (List.all_eq_true.mp outer other stored')
  rcases inner with apart | same | elsewhere | idle
  · exact absurd named apart
  · exact absurd same different
  · exact absurd sameCell elsewhere
  · simpa using idle

/-- Every way to an active state but one starts from an active state. -/
theorem active_target {source target : ThreadState}
    (allowed : transitionAllowed source target = true) (active : target.active = true) :
    target = .running := by
  cases target <;> cases source <;> simp_all [transitionAllowed, ThreadState.active]

theorem Single.transition {w : World} {id : String} (inv : Inv w) (single : Single w.store)
    (found : w.store.thread id = some t) {now : String} {target : ThreadState}
    (lone : target.active = true → t.state.active = true ∨ w.store.alone id = true) :
    Single (moveThread w id now t.state target).store := by
  apply Single.moved (f := CellThread.movedTo target now) single fun _ => ⟨rfl, rfl⟩
  intro row stored named active other stored' different sameCell
  obtain ⟨known, sameId⟩ := thread_of_find found
  obtain rfl := inv.thread_unique stored known (named.trans sameId.symm)
  rcases lone active with was | alone
  · by_contra busy
    have both := single other stored' row stored sameCell (by simpa using busy) was
    exact different (both.trans named)
  · exact alone_spec alone row stored named other stored' different sameCell

theorem Calm.single (step : Calm w w') (inv : Inv w)
    (single : Single w.store) : Single w'.store := by
  cases step with
  | quiet same => rw [same.store]; exact single
  | columns id f keeps _ => exact single.column keeps
  | spawned locks row thread job spawns => exact single.spawned spawns
  | moved id now t target found allowed idle =>
    exact single.transition inv found fun active => absurd (active_target allowed active) idle
  | _ => exact single

theorem Statement.single (step : Statement self w w') (inv : Inv w)
    (fits : Each RunsAlone w'.history) (single : Single w.store) : Single w'.store := by
  cases step with
  | calm step => exact step.single inv single
  | polled threadId turn _ _ => rw [(poll_leaves turn w).1]; exact single
  | running id now t row earlier _ found allowed _ _ =>
    exact single.transition inv found fun _ => fits.2
  | persisted id cell f _ keeps _ => exact single.column keeps
  | overdue threadId _ =>
    simp only [takeTurn, Action.exec_step]
    split <;> exact single
  | _ => exact single

end Steps

/-- In every run in which no follow-up job sets its thread running beside an active
thread, every cell has at most one active thread in every state. -/
theorem one_active_thread [Platform] {w : World} {c : FabricConfig} (blank : Blank w)
    (reached : service.Reaches w c) (fits : Each RunsAlone c.shared.history) (cell : String) :
    (c.shared.store.activeThreads cell).length ≤ 1 := by
  have single : Single c.shared.store := by
    apply always_where (P := fun s => Single s.store) blank reached fits
    · rw [blank.store]
      intro t member
      cases member
    · exact fun _ _ _ step good fits single => step.single good.1 fits single
  exact single.length_le (good_reachable blank reached).1.threadsOnce cell

section Sample

theorem one_active_thread_running : ∃ c, sampleService.Reaches blankWorld c ∧
    (c.shared.store.activeThreads "reviewer").map (·.state) = [.running] ∧
    (c.shared.store.activeThreads "reviewer").length ≤ 1 := by
  let _ := Platform.sample
  have ran : (sampleService.runs (System.dormant blankWorld) firstTurn).map (fun c => decide (
      Each RunsAlone c.shared.history ∧
      (c.shared.store.activeThreads "reviewer").map (·.state) = [.running])) = some true := by
    decide +kernel
  obtain ⟨c, run, facts⟩ := Option.map_eq_some_iff.mp ran
  obtain ⟨fits, running⟩ := of_decide_eq_true facts
  have reached : sampleService.Reaches blankWorld c := System.leads_of_runs _ run
  exact ⟨c, reached, running, one_active_thread blankWorld_blank reached fits "reviewer"⟩

/-- The first thread is idle and gets a follow-up job, a second thread is spawned on its
cell, and the next tick runs the first one beside it. -/
def followUp : List (Move (Input Outside) Request Event) :=
  firstAnswer ++ sendingTask 1 firstThread 1783242003 ++ spawning 2 "k2" 1783242003 ++
    ticking 12 1783242004

theorem two_active_threads : ∃ c, sampleService.Reaches blankWorld c ∧
    (c.shared.store.activeThreads "reviewer").map (·.state) = [.running, .spawning] := by
  let _ := Platform.sample
  have ran : (sampleService.runs (System.dormant blankWorld) followUp).map (fun c => decide (
      (c.shared.store.activeThreads "reviewer").map (·.state) = [.running, .spawning])) =
        some true := by
    decide +kernel
  obtain ⟨c, run, facts⟩ := Option.map_eq_some_iff.mp ran
  exact ⟨c, System.leads_of_runs _ run, of_decide_eq_true facts⟩

end Sample
end Crewd.Fabric
