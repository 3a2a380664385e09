import Mathlib.Data.List.Pairwise
import Crewd.Fabric.Soundness

/-! What one step does to the job queue, and that no cell ever has two started jobs or
two turns in flight: a job is leased only where none is started, and started only by
the scheduler, which leased it. -/
namespace Crewd.Fabric
open Autocommit Concurrent History Table

variable {w w' : World} {self : Actor}

/-- Marks of the updates of job rows. -/
def Mark.ofJob : Mark → Bool
  | .wrote _ _ | .requeued _ => true
  | _ => false

/-- What a step makes of the job rows and of the history. -/
inductive JobStep (w : World) : List CellJob → List Mark → Prop where
  | aside (marks : List Mark) : (∀ mark ∈ marks, mark.ofJob = false) →
      JobStep w w.store.jobs (marks ++ w.history)
  | enqueued (job : CellJob) : Enqueues w.store job →
      JobStep w (w.store.jobs ++ [job]) w.history
  | accepted (id now engineTurnId : String) :
      JobStep w (w.store.updateJob id fun j => { j with
        acceptedByEngineAt := some now, engineTurnId := some engineTurnId }).jobs w.history
  | leased (row : CellJob) (expires : String) : row ∈ w.store.jobs → row.state = .queued →
      Leases w.store row →
      JobStep w (w.store.updateJob row.jobId (.leasedUntil expires)).jobs
        (.wrote row .leased :: w.history)
  | begun (row : CellJob) : Leased w.store row → lastLease w.history = some row.jobId →
      JobStep w (w.store.updateJob row.jobId (.setState .started)).jobs
        (.wrote row .started :: w.history)
  | finished (row : CellJob) : row ∈ w.store.jobs → Begun row.jobId w.history →
      JobStep w (w.store.updateJob row.jobId (.setState .finished)).jobs
        (.wrote row .finished :: w.history)
  | cancelled (row : CellJob) : row ∈ w.store.jobs → row.state.active = true →
      JobStep w (w.store.updateJob row.jobId (.setState .cancelled)).jobs
        (.wrote row .cancelled :: w.history)
  | requeued (id : String) : (∃ j ∈ w.store.jobs, j.jobId = id ∧ j.unaccepted = true) →
      JobStep w (w.store.updateJob id CellJob.requeue).jobs (.requeued id :: w.history)

theorem JobStep.still (jobs : w'.store.jobs = w.store.jobs) (history : w'.history = w.history) :
    JobStep w w'.store.jobs w'.history := by
  rw [jobs, history]
  exact .aside [] fun _ inside => by cases inside

theorem JobStep.marked {mark : Mark} (aside : mark.ofJob = false) :
    JobStep w w.store.jobs (mark :: w.history) :=
  .aside [mark] fun _ inside => by rw [List.mem_singleton.mp inside]; exact aside

theorem Calm.jobStep (step : Calm w w') : JobStep w w'.store.jobs w'.history := by
  cases step with
  | quiet same => exact .still (by rw [same.store]) same.history
  | moved _ _ _ _ _ _ _ | recorded _ _ _ | emitted _ _ _ _ | journal _ _ _ _ | stopped _
  | died _ => exact .marked rfl
  | spawned locks row thread job spawns => exact .enqueued job spawns.enqueues
  | enqueued job enqueues _ => exact .enqueued job enqueues
  | cancelled row stored active => exact .cancelled row stored active
  | accepted id now engineTurnId => exact .accepted id now engineTurnId
  | _ => exact .still rfl rfl

theorem Statement.jobStep (step : Statement self w w') : JobStep w w'.store.jobs w'.history := by
  cases step with
  | calm step => exact step.jobStep
  | leased row expires _ stored queued leases => exact .leased row expires stored queued leases
  | begun row _ leased last => exact .begun row leased last
  | finished row _ stored begun => exact .finished row stored begun
  | requeued id _ due => exact .requeued id due
  | running _ _ _ _ _ _ _ _ _ _ | launched _ _ _ _ _ _ _ _ _ | restarted _ _
  | made _ _ _ _ _ _ | attached _ _ _ _ _ _ _ | applied _ _ _ _ _ => exact .marked rfl
  | polled threadId turn _ _ =>
    simp only [poll, Action.exec_step]
    split
    · exact .still rfl rfl
    · refine .aside _ fun mark inside => ?_
      obtain ⟨event, _, rfl⟩ := List.mem_map.mp (List.mem_reverse.mp inside)
      rfl
  | overdue threadId _ =>
    simp only [takeTurn, Action.exec_step]
    split
    · exact .still rfl rfl
    · exact .marked rfl
  | _ => exact .still rfl rfl

section Started

/-- Started jobs of one cell are one job. -/
def Solo (jobs : List CellJob) : Prop := ∀ j ∈ jobs, ∀ j' ∈ jobs, j.cellName = j'.cellName →
  j.state = .started → j'.state = .started → j.jobId = j'.jobId

/-- Updates after which no job is started that was not. -/
theorem Solo.updated {st : Store} (solo : Solo st.jobs) {id : String} {f : CellJob → CellJob}
    (keeps : ∀ j, (f j).fixed = j.fixed) (states : ∀ j, (f j).state = .started → j.state = .started) :
    Solo (st.updateJob id f).jobs := by
  have back : ∀ j ∈ (st.updateJob id f).jobs, ∃ old ∈ st.jobs, j.fixed = old.fixed ∧
      (j.state = .started → old.state = .started) := by
    intro j member
    obtain ⟨old, stored, rfl⟩ := mem_updateJob.mp member
    refine ⟨old, stored, ?_⟩
    split
    · exact ⟨keeps old, states old⟩
    · exact ⟨rfl, fun started => started⟩
  intro j member j' member' sameCell started started'
  obtain ⟨old, stored, same, was⟩ := back j member
  obtain ⟨old', stored', same', was'⟩ := back j' member'
  obtain ⟨sameId, _, inCell, _⟩ := CellJob.fixed_inj same
  obtain ⟨sameId', _, inCell', _⟩ := CellJob.fixed_inj same'
  rw [sameId, sameId']
  apply solo old stored old' stored' _ (was started) (was' started')
  rw [← inCell, ← inCell', sameCell]

/-- The leased job is started in a cell without started jobs. -/
theorem Solo.begun {st : Store} (leased : Leased st row) (solo : Solo st.jobs)
    (once : (st.jobs.map (·.jobId)).Nodup) :
    Solo (st.updateJob row.jobId (.setState .started)).jobs := by
  have others : ∀ j ∈ (st.updateJob row.jobId (.setState .started)).jobs,
      j.jobId = row.jobId ∧ j.cellName = row.cellName ∨ j ∈ st.jobs := by
    intro j member
    obtain ⟨old, stored, rfl⟩ := mem_updateJob.mp member
    split
    · rename_i named
      rw [List.inj_on_of_nodup_map once stored leased.stored named]
      exact .inl ⟨rfl, rfl⟩
    · exact .inr stored
  intro j member j' member' sameCell started started'
  rcases others j member with ⟨here, inCell⟩ | stored <;>
    rcases others j' member' with ⟨here', inCell'⟩ | stored'
  · rw [here, here']
  · exact absurd started' (leased.unoccupied j' stored' (sameCell.symm.trans inCell))
  · exact absurd started (leased.unoccupied j stored (sameCell.trans inCell'))
  · exact solo j stored j' stored' sameCell started started'

theorem JobStep.solo (step : JobStep w jobs history) (inv : Inv w) (solo : Solo w.store.jobs) :
    Solo jobs := by
  cases step with
  | aside marks _ => exact solo
  | enqueued job enqueues =>
    intro j member j' member' sameCell started started'
    rcases List.mem_append.mp member with old | new
    · rcases List.mem_append.mp member' with old' | new'
      · exact solo j old j' old' sameCell started started'
      · rw [List.mem_singleton.mp new', enqueues.queued] at started'
        cases started'
    · rw [List.mem_singleton.mp new, enqueues.queued] at started
      cases started
  | accepted id now engineTurnId => exact solo.updated (fun _ => rfl) fun _ started => started
  | begun row leased _ => exact solo.begun leased inv.jobsOnce
  | leased row expires _ _ _ =>
    exact solo.updated (f := .leasedUntil expires) (fun _ => rfl) fun _ started => by cases started
  | finished row _ _ =>
    exact solo.updated (f := .setState .finished) (fun _ => rfl) fun _ started => by cases started
  | cancelled row _ _ =>
    exact solo.updated (f := .setState .cancelled) (fun _ => rfl) fun _ started => by cases started
  | requeued id _ =>
    exact solo.updated (f := CellJob.requeue) (fun _ => rfl) fun _ started => by cases started

end Started

section InFlight

/-- No two turns in flight are on one cell. -/
def Apart (w : World) : Prop :=
  w.memory.scheduler.inFlight.Pairwise fun entry entry' => entry.2.cell ≠ entry'.2.cell

theorem Apart.same (apart : Apart w)
    (same : w'.memory.scheduler.inFlight = w.memory.scheduler.inFlight) : Apart w' := by
  rw [Apart, same]
  exact apart

theorem Statement.apart (step : Statement self w w') (apart : Apart w) : Apart w' := by
  cases step with
  | calm step => exact apart.same step.inFlight
  | polled threadId turn _ _ => exact apart.same (poll_leaves turn w).2
  | launched job cell nowNanos ok _ startable _ _ _ =>
    cases ok with
    | false => exact apart.same rfl
    | true =>
      refine List.pairwise_cons.mpr ⟨fun entry inside => ?_, apart.sublist List.filter_sublist⟩
      exact (startable.clear entry (mem_without.mp inside).1).symm
  | updatedTurn threadId f _ keeps =>
    refine List.pairwise_map.mpr (apart.imp ?_)
    intro entry entry' different
    have cells : ∀ e : String × InFlightTurn,
        (if e.1 = threadId then (e.1, f e.2) else e).2.cell = e.2.cell := by
      intro e
      split
      · exact (keeps e.2).1
      · rfl
    rw [cells, cells]
    exact different
  | landed threadId _ _ => exact apart.sublist List.filter_sublist
  | dropped cell _ _ => exact apart.sublist List.filter_sublist
  | overdue threadId _ =>
    simp only [takeTurn, Action.exec_step]
    split
    · exact apart
    · exact apart.sublist List.filter_sublist
  | restarted acl _ => exact List.Pairwise.nil
  | _ => exact apart.same rfl

/-- Two turns in flight are on two cells. -/
theorem Apart.elsewhere {entry entry' : String × InFlightTurn} (apart : Apart w)
    (flying : entry ∈ w.memory.scheduler.inFlight) (flying' : entry' ∈ w.memory.scheduler.inFlight)
    (different : entry ≠ entry') : entry.2.cell ≠ entry'.2.cell := by
  have symmetric : Std.Symm fun entry entry' : String × InFlightTurn =>
    entry.2.cell ≠ entry'.2.cell := ⟨fun _ _ => Ne.symm⟩
  exact List.Pairwise.forall apart flying flying' different

theorem Apart.length_le (apart : Apart w) (cell : String) :
    (w.memory.scheduler.inFlight.filter (·.2.cell = cell)).length ≤ 1 := by
  have pairs := apart.sublist (List.filter_sublist (p := fun entry => decide (entry.2.cell = cell)))
  have inside : ∀ entry ∈ w.memory.scheduler.inFlight.filter (·.2.cell = cell),
      entry.2.cell = cell := fun entry member => of_decide_eq_true (List.mem_filter.mp member).2
  generalize w.memory.scheduler.inFlight.filter (·.2.cell = cell) = entries at pairs inside
  match entries with
  | [] => exact Nat.zero_le _
  | [_] => exact Nat.le_refl _
  | entry :: entry' :: rest =>
    have different := (List.pairwise_cons.mp pairs).1 entry' List.mem_cons_self
    rw [inside entry List.mem_cons_self, inside entry' (by simp)] at different
    exact absurd rfl different

end InFlight

/-- In every reachable state each cell has at most one started job and at most one turn
in flight. -/
theorem one_turn_per_cell [Platform] {w : World} {c : FabricConfig} (blank : Blank w)
    (reached : service.Reaches w c) (cell : String) :
    (c.shared.store.jobs.filter fun j => j.cellName = cell ∧ j.state = .started).length ≤ 1 ∧
      (c.shared.memory.scheduler.inFlight.filter (·.2.cell = cell)).length ≤ 1 := by
  have solo : Solo c.shared.store.jobs := by
    apply always (P := fun s => Solo s.store.jobs) blank reached
    · rw [blank.store]
      intro j member
      cases member
    · exact fun _ _ _ step good solo => step.jobStep.solo good.1 solo
  have apart : Apart c.shared := by
    apply always blank reached
    · rw [Apart, blank.inFlight]
      exact List.Pairwise.nil
    · exact fun _ _ _ step _ apart => step.apart apart
  have once := (good_reachable blank reached).1.jobsOnce
  refine ⟨length_le_one ((List.Nodup.of_map _ once).filter _) ?_, apart.length_le cell⟩
  intro j member j' member'
  obtain ⟨stored, here⟩ := List.mem_filter.mp member
  obtain ⟨stored', here'⟩ := List.mem_filter.mp member'
  have facts := of_decide_eq_true here
  have facts' := of_decide_eq_true here'
  apply List.inj_on_of_nodup_map once stored stored'
  exact solo j stored j' stored' (facts.1.trans facts'.1.symm) facts.2 facts'.2

/-- A turn is in flight on the cell, and a follow-up job waits behind it. -/
theorem one_turn_per_cell_waiting : ∃ c, sampleService.Reaches blankWorld c ∧
    c.shared.store.jobs.map (·.state) = [.started, .queued] ∧
    (c.shared.store.jobs.filter fun j => j.cellName = "reviewer" ∧ j.state = .started).length ≤ 1 ∧
    (c.shared.memory.scheduler.inFlight.filter (·.2.cell = "reviewer")).length ≤ 1 := by
  let _ := Platform.sample
  have ran : (sampleService.runs (System.dormant blankWorld)
      (firstTurn ++ sendingTask 1 firstThread 1783242002)).map (fun c => decide (
        c.shared.store.jobs.map (·.state) = [.started, .queued])) = some true := by
    decide +kernel
  obtain ⟨c, run, states⟩ := Option.map_eq_some_iff.mp ran
  have reached : sampleService.Reaches blankWorld c := System.leads_of_runs _ run
  exact ⟨c, reached, of_decide_eq_true states, one_turn_per_cell blankWorld_blank reached "reviewer"⟩

end Crewd.Fabric
