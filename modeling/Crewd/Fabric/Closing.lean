import Crewd.Fabric.Queue

/-! Jobs that have come to an end, and the depth of the queue. The updates of a job row
do not look at its state, so both depend on where a cancel lands between the lease, the
start and the end of a turn. -/
namespace Crewd.Fabric
open Autocommit Concurrent History Table

variable {w : World} {jobs : List CellJob} {history : List Mark} {jobId : String}

/-- The state that was last written for the job. -/
def written (jobId : String) : List Mark → Option JobState
  | [] => none
  | .wrote row state :: earlier => if row.jobId = jobId then some state else written jobId earlier
  | .requeued id :: earlier => if id = jobId then some .queued else written jobId earlier
  | _ :: earlier => written jobId earlier

/-- The last update of the job's state was its cancel. -/
def Cancelled (jobId : String) (history : List Mark) : Prop :=
  written jobId history = some .cancelled

instance : Decidable (Cancelled jobId history) := inferInstanceAs (Decidable (_ = _))

/-- A job is marked started only when no cancel came between its lease and its start. -/
def StartsLeased (earlier : List Mark) : Mark → Prop
  | .wrote row .started => ¬ Cancelled row.jobId earlier
  | _ => True

/-- The same, and a job is finished only when no cancel came between its start and its end. -/
def Undisturbed (earlier : List Mark) : Mark → Prop
  | .wrote row .started | .wrote row .finished => ¬ Cancelled row.jobId earlier
  | _ => True

instance : Decidable (StartsLeased earlier mark) := by
  unfold StartsLeased
  split <;> infer_instance

instance : Decidable (Undisturbed earlier mark) := by
  unfold Undisturbed
  split <;> infer_instance

section Written

theorem written_cons {mark : Mark} (aside : mark.ofJob = false) :
    written jobId (mark :: history) = written jobId history := by
  cases mark <;> first | rfl | cases aside

theorem written_append {marks : List Mark} (aside : ∀ mark ∈ marks, mark.ofJob = false) :
    written jobId (marks ++ history) = written jobId history := by
  induction marks with
  | nil => rfl
  | cons mark rest ih =>
    rw [List.cons_append, written_cons (aside mark List.mem_cons_self)]
    exact ih fun other inside => aside other (List.mem_cons_of_mem _ inside)

/-- The state of a job is what was last written; a job that was never written is queued. -/
structure Accounts (jobs : List CellJob) (history : List Mark) : Prop where
  states : ∀ j ∈ jobs, (written j.jobId history).getD .queued = j.state
  known : ∀ id state, written id history = some state → ∃ j ∈ jobs, j.jobId = id

theorem Accounts.initial : Accounts [] [] :=
  ⟨fun _ member => (by cases member), fun _ _ wrote => (by cases wrote)⟩

/-- One row is written, and the new mark says its state. -/
theorem Accounts.updated {st : Store} (accounts : Accounts st.jobs history) {id : String}
    {f : CellJob → CellJob} {state : JobState} {mark : Mark} (keeps : ∀ j, (f j).jobId = j.jobId)
    (states : ∀ j, (f j).state = state) (known : ∃ j ∈ st.jobs, j.jobId = id)
    (marks : ∀ other, written other (mark :: history) =
      if id = other then some state else written other history) :
    Accounts (st.updateJob id f).jobs (mark :: history) := by
  constructor
  · intro j member
    obtain ⟨old, stored, rfl⟩ := mem_updateJob.mp member
    rw [marks]
    split
    · rename_i here
      rw [keeps, if_pos here.symm, states]
      rfl
    · rename_i apart
      rw [if_neg (Ne.symm apart)]
      exact accounts.states old stored
  · intro other was wrote
    rw [marks] at wrote
    have stored : ∃ j ∈ st.jobs, j.jobId = other := by
      split at wrote
      · rename_i here
        rw [← here]
        exact known
      · exact accounts.known other was wrote
    obtain ⟨j, stored, named⟩ := stored
    refine ⟨_, mem_updateJob.mpr ⟨j, stored, rfl⟩, ?_⟩
    split
    · exact (keeps j).trans named
    · exact named

theorem JobStep.accounts (step : JobStep w jobs history)
    (accounts : Accounts w.store.jobs w.history) : Accounts jobs history := by
  cases step with
  | aside marks aside =>
    constructor
    · exact fun j stored => (congrArg (Option.getD · _) (written_append aside)).trans
        (accounts.states j stored)
    · exact fun id state wrote => accounts.known id state ((written_append aside).symm.trans wrote)
  | enqueued job enqueues =>
    constructor
    · intro j member
      rcases List.mem_append.mp member with old | new
      · exact accounts.states j old
      · rw [List.mem_singleton.mp new, enqueues.queued]
        cases wrote : written job.jobId w.history with
        | none => rfl
        | some state =>
          obtain ⟨j, stored, named⟩ := accounts.known _ _ wrote
          exact absurd named (enqueues.fresh j stored)
    · intro id state wrote
      obtain ⟨j, stored, named⟩ := accounts.known id state wrote
      exact ⟨j, List.mem_append_left _ stored, named⟩
  | accepted id now engineTurnId =>
    have back : ∀ old : CellJob, (if old.jobId = id then { old with
        acceptedByEngineAt := some now, engineTurnId := some engineTurnId } else old).jobId =
          old.jobId := fun old => by split <;> rfl
    constructor
    · intro j member
      obtain ⟨old, stored, rfl⟩ := mem_updateJob.mp member
      rw [back, accounts.states old stored]
      split <;> rfl
    · intro other state wrote
      obtain ⟨j, stored, named⟩ := accounts.known other state wrote
      exact ⟨_, mem_updateJob.mpr ⟨j, stored, rfl⟩, (back j).trans named⟩
  | leased row expires stored _ _ =>
    exact accounts.updated (f := .leasedUntil expires) (fun _ => rfl) (fun _ => rfl)
      ⟨row, stored, rfl⟩ fun _ => rfl
  | begun row leased _ =>
    exact accounts.updated (f := .setState .started) (fun _ => rfl) (fun _ => rfl)
      ⟨row, leased.stored, rfl⟩ fun _ => rfl
  | finished row stored _ =>
    exact accounts.updated (f := .setState .finished) (fun _ => rfl) (fun _ => rfl)
      ⟨row, stored, rfl⟩ fun _ => rfl
  | cancelled row stored _ =>
    exact accounts.updated (f := .setState .cancelled) (fun _ => rfl) (fun _ => rfl)
      ⟨row, stored, rfl⟩ fun _ => rfl
  | requeued id due =>
    obtain ⟨row, stored, named, _⟩ := due
    exact accounts.updated (f := CellJob.requeue) (fun _ => rfl) (fun _ => rfl)
      ⟨row, stored, named⟩ fun _ => rfl

theorem accounts_reachable [Platform] {w : World} {c : FabricConfig} (blank : Blank w)
    (reached : service.Reaches w c) : Accounts c.shared.store.jobs c.shared.history := by
  apply always (P := fun s => Accounts s.store.jobs s.history) blank reached
  · rw [blank.store, blank.history]
    exact .initial
  · exact fun _ _ _ step _ accounts => step.jobStep.accounts accounts

/-- A state that a job does not begin with was written last. -/
theorem Accounts.wrote {state : JobState} (accounts : Accounts jobs history) (stored : j ∈ jobs)
    (left : state ≠ .queued) (holds : j.state = state) : written j.jobId history = some state := by
  have last := (accounts.states j stored).trans holds
  cases found : written j.jobId history with
  | none =>
    rw [found] at last
    exact absurd last.symm left
  | some s =>
    rw [found] at last
    exact congrArg some last

/-- Without a cancel in between, the job that is marked started is leased. -/
theorem Leased.state_of_fits (leased : Leased w.store row) (accounts : Accounts w.store.jobs w.history)
    (fits : ¬ Cancelled row.jobId w.history) : row.state = .leased := by
  rcases leased.state with holds | cancelled
  · exact holds
  · exact absurd (accounts.wrote leased.stored (by decide) cancelled) fits

end Written

section Closed

/-- The job ended in the state. -/
def Ended (jobId : String) (state : JobState) (jobs : List CellJob) : Prop :=
  ∃ j ∈ jobs, j.jobId = jobId ∧ j.state = state

/-- Updates of rows that leave this one alone, or its state. -/
theorem Ended.updated {st : Store} {state : JobState} (ended : Ended jobId state st.jobs)
    {id : String} {f : CellJob → CellJob} (keeps : ∀ j, (f j).jobId = j.jobId)
    (states : ∀ j ∈ st.jobs, j.jobId = id → j.state = state → (f j).state = state) :
    Ended jobId state (st.updateJob id f).jobs := by
  obtain ⟨j, stored, named, holds⟩ := ended
  refine ⟨_, mem_updateJob.mpr ⟨j, stored, rfl⟩, ?_⟩
  split
  · rename_i here
    exact ⟨(keeps j).trans named, states j stored here holds⟩
  · exact ⟨named, holds⟩

theorem JobStep.ended {state : JobState} (step : JobStep w jobs history) (inv : Inv w)
    (accounts : Accounts w.store.jobs w.history) (fits : Each Undisturbed history)
    (closed : state.active = false) (ended : Ended jobId state w.store.jobs) :
    Ended jobId state jobs := by
  have other : ∀ {row : CellJob} {f : CellJob → CellJob}, row ∈ w.store.jobs →
      (row.state ≠ state ∨ (f row).state = state) →
      ∀ j ∈ w.store.jobs, j.jobId = row.jobId → j.state = state → (f j).state = state := by
    intro row f stored either j stored' named holds
    obtain rfl := inv.job_unique stored' stored named
    rcases either with different | kept
    · exact absurd holds different
    · exact kept
  have open_ : ∀ {s : JobState}, s.active = true → s ≠ state := by
    rintro s active rfl
    rw [closed] at active
    cases active
  cases step with
  | aside marks _ => exact ended
  | enqueued job _ =>
    obtain ⟨j, stored, facts⟩ := ended
    exact ⟨j, List.mem_append_left _ stored, facts⟩
  | accepted id now engineTurnId => exact ended.updated (fun _ => rfl) fun _ _ _ holds => holds
  | leased row expires stored queued _ =>
    apply ended.updated (f := .leasedUntil expires) (fun _ => rfl)
    exact other stored (.inl (queued ▸ open_ rfl))
  | begun row leased _ =>
    have state := leased.state_of_fits accounts fits.2
    apply ended.updated (f := .setState .started) (fun _ => rfl)
    exact other leased.stored (.inl (state ▸ open_ rfl))
  | finished row stored _ =>
    apply ended.updated (f := .setState .finished) (fun _ => rfl)
    apply other stored
    cases holds : row.state with
    | finished =>
      by_cases same : state = .finished
      · exact .inr same.symm
      · exact .inl (Ne.symm same)
    | cancelled => exact absurd (accounts.wrote stored (by decide) holds) fits.2
    | _ => exact .inl (open_ rfl)
  | cancelled row stored active =>
    apply ended.updated (f := .setState .cancelled) (fun _ => rfl)
    exact other stored (.inl (open_ active))
  | requeued id due =>
    obtain ⟨row, stored, rfl, unaccepted⟩ := due
    apply ended.updated (f := CellJob.requeue) (fun _ => rfl)
    apply other stored
    have facts := of_decide_eq_true unaccepted
    rcases facts.2 with holds | holds
    · exact .inl (holds ▸ open_ rfl)
    · exact .inl (holds ▸ open_ rfl)

/-- In every run in which no cancel lands between the lease and the start of a job, or
between its start and its end, a job that is finished or cancelled stays so. -/
theorem closed_jobs_stay [Platform] {w : World} {c d : FabricConfig} (blank : Blank w)
    (reached : service.Reaches w c) (later : service.Leads c d)
    (fits : Each Undisturbed d.shared.history) {j : CellJob} (stored : j ∈ c.shared.store.jobs)
    (closed : j.state.active = false) :
    ∃ j' ∈ d.shared.store.jobs, j'.jobId = j.jobId ∧ j'.state = j.state := by
  have accounts := accounts_reachable blank reached
  have kept : Ended j.jobId j.state d.shared.store.jobs ∧
      Accounts d.shared.store.jobs d.shared.history := by
    apply lasting_where (P := fun s => Ended j.jobId j.state s.store.jobs ∧
      Accounts s.store.jobs s.history) blank reached _ ⟨⟨j, stored, rfl, rfl⟩, accounts⟩ later fits
    intro _ s t step good fits ⟨ended, accounts⟩
    constructor
    · exact step.jobStep.ended good.1 accounts fits closed ended
    · exact step.jobStep.accounts accounts
  exact kept.1

/-- The job of a turn that was answered stays finished over a restart. -/
theorem closed_jobs_stay_finished : ∃ c d, ∃ j ∈ c.shared.store.jobs,
    sampleService.Reaches blankWorld c ∧ sampleService.Leads c d ∧ j.state = .finished ∧
    ∃ j' ∈ d.shared.store.jobs, j'.jobId = j.jobId ∧ j'.state = .finished := by
  let _ := Platform.sample
  have ran : ((sampleService.runs (System.dormant blankWorld) firstAnswer).bind fun c =>
      (sampleService.runs c (cancelling 1 firstThread 4 1783242003 ++ [start 1783242004])).map
        fun d => (c, d)).map (fun (c, d) => decide (Each Undisturbed d.shared.history ∧
          ∃ j ∈ c.shared.store.jobs, j.state = .finished)) = some true := by
    decide +kernel
  obtain ⟨⟨c, d⟩, runs, facts⟩ := Option.map_eq_some_iff.mp ran
  obtain ⟨_, run, rest⟩ := Option.bind_eq_some_iff.mp runs
  obtain ⟨_, run', pair⟩ := Option.map_eq_some_iff.mp rest
  cases pair
  obtain ⟨fits, j, stored, finished⟩ := of_decide_eq_true facts
  have reached : sampleService.Reaches blankWorld c := System.leads_of_runs _ run
  have later : sampleService.Leads c d := System.leads_of_runs _ run'
  obtain ⟨j', stored', named, same⟩ := closed_jobs_stay blankWorld_blank reached later fits stored
    (by rw [finished]; rfl)
  exact ⟨c, d, j, stored, reached, later, finished, j', stored', named, same.trans finished⟩

/-- The job is cancelled after its lease, and the scheduler starts it. -/
theorem cancelled_job_starts : ∃ c d, sampleService.Reaches blankWorld c ∧ sampleService.Leads c d ∧
    c.shared.store.jobs.map (·.state) = [.cancelled] ∧
    d.shared.store.jobs.map (·.state) = [.started] := by
  let _ := Platform.sample
  have ran : ((sampleService.runs (System.dormant blankWorld)
      (firstLease ++ cancelling 1 firstThread 2 1783242001)).bind fun c =>
      (sampleService.runs c (ticking 2 1783242001)).map fun d => (c, d)).map (fun (c, d) => decide (
        c.shared.store.jobs.map (·.state) = [.cancelled] ∧
        d.shared.store.jobs.map (·.state) = [.started])) = some true := by
    decide +kernel
  obtain ⟨⟨c, d⟩, runs, facts⟩ := Option.map_eq_some_iff.mp ran
  obtain ⟨_, run, rest⟩ := Option.bind_eq_some_iff.mp runs
  obtain ⟨_, run', pair⟩ := Option.map_eq_some_iff.mp rest
  cases pair
  exact ⟨c, d, System.leads_of_runs _ run, System.leads_of_runs _ run', of_decide_eq_true facts⟩

end Closed

section Depth

theorem activeCount_append {st : Store} {job : CellJob} {cell : String} (active : job.state.active) :
    ({ st with jobs := st.jobs ++ [job] } : Store).activeCount cell =
      st.activeCount cell + if job.cellName = cell then 1 else 0 := by
  simp only [Store.activeCount, List.filter_append, List.length_append]
  by_cases inCell : job.cellName = cell
  · simp [inCell, active]
  · simp [inCell]

/-- No update brings a job back into the count. -/
theorem activeCount_updateJob_le {st : Store} {id cell : String} {f : CellJob → CellJob}
    (keeps : ∀ j, (f j).cellName = j.cellName)
    (active : ∀ j ∈ st.jobs, j.jobId = id → (f j).state.active = true → j.state.active = true) :
    (st.updateJob id f).activeCount cell ≤ st.activeCount cell := by
  simp only [Store.activeCount, ← List.countP_eq_length_filter, Store.updateJob, updateWhere,
    List.countP_map]
  apply List.countP_mono_left
  intro j stored counted
  by_cases named : j.jobId = id
  · have facts : (f j).cellName = cell ∧ (f j).state.active = true := by simpa [named] using counted
    exact decide_eq_true ⟨(keeps j).symm.trans facts.1, active j stored named facts.2⟩
  · have facts : j.cellName = cell ∧ j.state.active = true := by simpa [named] using counted
    exact decide_eq_true facts

/-- Every queue is within the cap. -/
def Within (st : Store) : Prop := ∀ cell, st.activeCount cell ≤ queueDepthDefault

theorem JobStep.within {st' : Store} (step : JobStep w st'.jobs history) (inv : Inv w)
    (accounts : Accounts w.store.jobs w.history) (fits : Each StartsLeased history)
    (within : Within w.store) : Within st' := by
  intro cell
  have only : ∀ {row : CellJob} {f : CellJob → CellJob}, row ∈ w.store.jobs →
      (row.state.active = true ∨ (f row).state.active = false) →
      ∀ j ∈ w.store.jobs, j.jobId = row.jobId → (f j).state.active = true → j.state.active = true := by
    intro row f stored either j stored' named active
    obtain rfl := inv.job_unique stored' stored named
    rcases either with was | ends
    · exact was
    · rw [ends] at active
      cases active
  have counted : ∀ {st : Store}, st'.jobs = st.jobs → st.activeCount cell ≤ w.store.activeCount cell →
      st'.activeCount cell ≤ queueDepthDefault := by
    intro st same le
    rw [Store.activeCount, same]
    exact Nat.le_trans le (within cell)
  generalize rows : st'.jobs = jobs at step
  cases step with
  | aside marks _ => exact counted rows (Nat.le_refl _)
  | enqueued job enqueues =>
    have active : job.state.active = true := by
      rw [enqueues.queued]
      rfl
    have count : ({ w.store with jobs := w.store.jobs ++ [job] } : Store).activeCount cell =
        w.store.activeCount cell + if job.cellName = cell then 1 else 0 := activeCount_append active
    rw [Store.activeCount] at count ⊢
    rw [rows, count]
    split
    · rename_i inCell
      exact inCell ▸ enqueues.room
    · exact within cell
  | accepted id now engineTurnId =>
    exact counted rows (activeCount_updateJob_le (fun _ => rfl) fun _ _ _ active => active)
  | leased row expires stored queued _ =>
    exact counted rows (activeCount_updateJob_le (f := .leasedUntil expires) (fun _ => rfl)
      (only stored (.inl (by rw [queued]; rfl))))
  | begun row leased _ =>
    exact counted rows (activeCount_updateJob_le (f := .setState .started) (fun _ => rfl)
      (only leased.stored (.inl (by rw [leased.state_of_fits accounts fits.2]; rfl))))
  | finished row stored _ =>
    exact counted rows (activeCount_updateJob_le (f := .setState .finished) (fun _ => rfl)
      (only stored (.inr rfl)))
  | cancelled row stored active =>
    exact counted rows (activeCount_updateJob_le (f := .setState .cancelled) (fun _ => rfl)
      (only stored (.inl active)))
  | requeued id due =>
    obtain ⟨row, stored, rfl, unaccepted⟩ := due
    refine counted rows (activeCount_updateJob_le (f := CellJob.requeue) (fun _ => rfl)
      (only stored (.inl ?_)))
    have facts := of_decide_eq_true unaccepted
    rcases facts.2 with holds | holds <;> rw [holds] <;> rfl

/-- In every run in which no cancel lands between the lease and the start of a job, no
cell has more queued, leased and started jobs than the cap. -/
theorem queue_within_cap [Platform] {w : World} {c : FabricConfig} (blank : Blank w)
    (reached : service.Reaches w c) (fits : Each StartsLeased c.shared.history) (cell : String) :
    c.shared.store.activeCount cell ≤ queueDepthDefault := by
  have kept : Within c.shared.store ∧ Accounts c.shared.store.jobs c.shared.history := by
    apply always_where (P := fun s => Within s.store ∧ Accounts s.store.jobs s.history) blank
      reached fits
    · rw [blank.store, blank.history]
      exact ⟨fun _ => Nat.zero_le _, .initial⟩
    · intro _ s t step good fits ⟨within, accounts⟩
      constructor
      · exact step.jobStep.within good.1 accounts fits within
      · exact step.jobStep.accounts accounts
  exact kept.1 cell

/-- Four follow-up jobs wait behind a turn in flight. -/
theorem queue_within_cap_waiting : ∃ c, sampleService.Reaches blankWorld c ∧
    c.shared.store.activeCount "reviewer" = 5 ∧
    c.shared.store.activeCount "reviewer" ≤ queueDepthDefault := by
  let _ := Platform.sample
  have ran : (sampleService.runs (System.dormant blankWorld) (firstTurn ++
      (List.range 4).flatMap fun k => sendingTask (k + 1) firstThread 1783242002)).map (fun c =>
        decide (Each StartsLeased c.shared.history ∧
          c.shared.store.activeCount "reviewer" = 5)) = some true := by
    decide +kernel
  obtain ⟨c, run, facts⟩ := Option.map_eq_some_iff.mp ran
  obtain ⟨fits, count⟩ := of_decide_eq_true facts
  have reached : sampleService.Reaches blankWorld c := System.leads_of_runs _ run
  exact ⟨c, reached, count, queue_within_cap blankWorld_blank reached fits "reviewer"⟩

/-- The only job is leased and cancelled, eight follow-up jobs fill the queue, and the
scheduler starts the cancelled job. -/
theorem queue_exceeds_cap : ∃ c, sampleService.Reaches blankWorld c ∧
    c.shared.store.activeCount "reviewer" = queueDepthDefault + 1 := by
  let _ := Platform.sample
  have ran : (sampleService.runs (System.dormant blankWorld) (firstLease ++
      cancelling 1 firstThread 2 1783242001 ++
      ((List.range 8).flatMap fun k => sendingTask (k + 2) firstThread 1783242002) ++
      ticking 2 1783242003)).map (fun c =>
        decide (c.shared.store.activeCount "reviewer" = queueDepthDefault + 1)) = some true := by
    decide +kernel
  obtain ⟨c, run, count⟩ := Option.map_eq_some_iff.mp ran
  exact ⟨c, System.leads_of_runs _ run, of_decide_eq_true count⟩

end Depth

end Crewd.Fabric
