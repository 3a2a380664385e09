import Crewd.Bus.Walks

/-! The cap on a cell's pending asks. A call counts them in one section, checks the
count in the next and inserts its ask in a third; what other calls of the cell insert
in between is bounded by nothing but the condition stated here. -/
namespace Crewd.Bus
open Autocommit Concurrent

section Cap
variable [Platform]

/-- Where an ask is inserted, no more asks of its caller are pending than when it was
counted, or still fewer than the cap; a start does not lower the cap below what is
pending for a cell. -/
def Uncrowded (t : BusTracked) : Move (Input Outside) Request Event → Prop
  | .run task _ => match t.config.pool[task]? with
    | some (.ask caller ⟨_, .ok p⟩, _) =>
      (t.visits task).length = p.insertion → p.unbound caller t.config.shared →
        (∃ counted, (t.visits task)[p.insertion - 2]? = some counted ∧
          t.config.shared.store.pendingAsks caller ≤ counted.2.store.pendingAsks caller) ∨
        t.config.shared.store.pendingAsks caller <
          t.config.shared.memory.quota.config.pendingAskCap
    | _ => True
  | .crash i => ∀ start, i.outside.start = some start → ∀ ask ∈ t.config.shared.store.asks,
    t.config.shared.store.pendingAsks ask.fromCell ≤ start.quota.pendingAskCap
  | _ => True

omit [Platform] in
theorem pendingAsks_le {st : Store} {cap : Nat}
    (each : ∀ ask ∈ st.asks, st.pendingAsks ask.fromCell ≤ cap) (cell : String) :
    st.pendingAsks cell ≤ cap := by
  by_cases asked : ∃ ask ∈ st.asks, ask.fromCell = cell
  · obtain ⟨ask, member, rfl⟩ := asked
    exact each ask member
  · have none : st.pendingAsks cell = 0 := by
      apply List.length_eq_zero_iff.mpr
      apply List.filter_eq_nil_iff.mpr
      intro ask member holds
      simp only [Bool.and_eq_true, decide_eq_true_eq] at holds
      exact asked ⟨ask, member, holds.1⟩
    omega

/-- While the daemon is up, no cell has more pending asks than its cap. -/
structure Capped (t : BusTracked) : Prop where
  fixed : System.Fixed (fun w : World => w.memory.quota.config) t
  bounded : t.config.up = true → ∀ cell, t.config.shared.store.pendingAsks cell ≤
    t.config.shared.memory.quota.config.pendingAskCap

theorem capped_kept : System.Kept service
    (fun _ request visits _ w w' => Effect request visits w w')
    (fun _ request => endsIn (fun _ _ => True) (Accounted request)) Aside Uncrowded Capped := by
  have fixed : System.Kept service (fun _ request visits _ w w' => Effect request visits w w')
      (fun _ request => endsIn (fun _ _ => True) (Accounted request)) Aside Uncrowded
      (System.Fixed fun w : World => w.memory.quota.config) :=
    System.kept_fixed (fun _ _ _ _ _ _ moved => moved.config) fun _ _ aside => congrArg _ aside.quota
  constructor
  · intro u v request holds up same up' pool visits unvisited
    refine ⟨fixed.called u v request holds.fixed up same up' pool visits unvisited, fun _ => ?_⟩
    rw [same]
    exact holds.bounded up
  · intro u v task i request code code' holds fit up found ran moved along up' pool visits
    refine ⟨fixed.ran u v task i request code code' holds.fixed fit up found ran moved along up'
      pool visits, fun _ cell => ?_⟩
    have bounded := holds.bounded up
    rw [moved.config]
    rcases moved.asks with fewer | opens
    · exact Nat.le_trans (fewer cell) (bounded cell)
    obtain ⟨caller, keys, p, counted, checked, rfl, here, unbound, seen, seen', below, more, others⟩ :=
      opens
    by_cases own : cell = caller
    · subst own
      have cap : checked.2.memory.quota.config = u.config.shared.memory.quota.config := by
        cases code with
        | done a => simp [Process.step] at ran
        | atomic ready act next =>
          exact holds.fixed task _ ready act next found checked (List.mem_of_getElem? seen')
      simp only [Uncrowded, found] at fit
      rw [cap] at below
      rcases fit here unbound with ⟨counted', seen'', still⟩ | room
      · cases seen.symm.trans seen''
        omega
      · omega
    · exact Nat.le_trans (others cell own) (bounded cell)
  · intro u v holds up pool visits moved
    refine ⟨fixed.beside u v holds.fixed up pool visits moved, fun up' cell => ?_⟩
    rw [up] at up'
    rcases moved with same | aside
    · rw [same]
      exact holds.bounded up' cell
    · have within := aside.asks cell
      have bounded := holds.bounded up' cell
      rw [aside.quota]
      omega
  · intro u i holds fit
    refine ⟨fixed.crashed u i holds.fixed fit, fun up cell => ?_⟩
    obtain ⟨start, started⟩ := Option.isSome_iff_exists.mp (show i.outside.start.isSome from up)
    have cap : (restart i u.config.shared).1.memory.quota.config = start.quota := by
      simp only [restart, started, Option.getD_some]
      rfl
    show u.config.shared.store.pendingAsks cell ≤
      (restart i u.config.shared).1.memory.quota.config.pendingAskCap
    rw [cap]
    exact pendingAsks_le (fit start started) cell

/-- In a run in which no ask is inserted past the count it was admitted with, unless
there is still room, no cell has more pending asks than the cap. -/
theorem pending_asks_bounded {t : BusTracked}
    (run : service.Follows Uncrowded (System.dormant w).tracked t) (up : t.config.up = true)
    (cell : String) : t.config.shared.store.pendingAsks cell ≤
      t.config.shared.memory.quota.config.pendingAskCap := by
  have capped : Capped t := by
    refine kept_run capped_kept ⟨?_, fun up => by cases up⟩ run
    intro k request ready act next found
    cases found
  exact capped.bounded up cell

end Cap

section Sample

/-- A cell may wait for one answer at a time. -/
def oneAskStart : Start := { sampleStart with quota := { QuotaConfig.default with pendingAskCap := 1 } }

instance [Platform] {caller : String} {p : AskParams} {w : World} : Decidable (p.unbound caller w) :=
  inferInstanceAs (Decidable (_ = none))

instance [Platform] (t : BusTracked) (action : Move (Input Outside) Request Event) :
    Decidable (Uncrowded t action) := by
  unfold Uncrowded
  split
  · split
    · infer_instance
    · infer_instance
  · infer_instance
  · infer_instance

/-- A second ask is turned away while the first is pending. -/
theorem pending_asks_bounded_one : ∃ t : BusTracked,
    sampleService.Follows (@Uncrowded .sample) (System.dormant blankWorld).tracked t ∧
    t.config.shared.store.pendingAsks "coder" ≤
      t.config.shared.memory.quota.config.pendingAskCap ∧
    t.config.shared.store.pendingAsks "coder" = 1 ∧
    t.config.answer 1 = some (.error (.quota "pending-ask cap reached (1 open)")) := by
  let _ := Platform.sample
  have ran : (sampleService.tracks (System.dormant blankWorld).tracked
      (startWith oneAskStart :: asking "coder" "reviewer" "k1" :: sections 0 9 1783242000 ++
        asking "coder" "ops" "k2" :: sections 1 9 1783242001)).map (fun t => decide (
          t.config.up = true ∧ t.config.shared.store.pendingAsks "coder" = 1 ∧
          t.config.answer 1 = some (.error (.quota "pending-ask cap reached (1 open)")))) =
      some true := by decide +kernel
  have fitting : System.decideFits Uncrowded sampleService (System.dormant blankWorld).tracked
      (startWith oneAskStart :: asking "coder" "reviewer" "k1" :: sections 0 9 1783242000 ++
        asking "coder" "ops" "k2" :: sections 1 9 1783242001) = true := by decide +kernel
  obtain ⟨t, run, facts⟩ := Option.map_eq_some_iff.mp ran
  obtain ⟨up, one, refused⟩ := of_decide_eq_true facts
  have follows := System.follows_of_tracks run fitting
  exact ⟨t, follows, pending_asks_bounded follows up "coder", one, refused⟩

/-- Two asks are counted before either of them is inserted. -/
theorem racing_asks_exceed_cap : ∃ c, sampleService.Reaches blankWorld c ∧ c.up = true ∧
    c.shared.memory.quota.config.pendingAskCap = 1 ∧ c.shared.store.pendingAsks "coder" = 2 := by
  have ran : (sampleService.runs (System.dormant blankWorld)
      (startWith oneAskStart :: asking "coder" "reviewer" "k1" :: sections 0 8 1783242000 ++
        asking "coder" "ops" "k2" :: sections 1 9 1783242001 ++ sections 0 1 1783242002)).map
      (fun c => decide (c.up = true ∧ c.shared.memory.quota.config.pendingAskCap = 1 ∧
        c.shared.store.pendingAsks "coder" = 2)) = some true := by decide +kernel
  obtain ⟨c, run, facts⟩ := Option.map_eq_some_iff.mp ran
  exact ⟨c, System.leads_of_runs _ run, of_decide_eq_true facts⟩

end Sample
end Crewd.Bus
