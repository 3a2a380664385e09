import Crewd.Fabric.Closing

/-! The order in which the jobs of a cell are started. Numbers are given in the order in
which jobs are enqueued and leases follow them; what may break the order is a lease
that is never followed by a start, because it does not hold back the next one. -/
namespace Crewd.Fabric
open Autocommit Concurrent History Table

variable {w : World} {jobs : List CellJob} {history earlier : List Mark} {jobId cell : String}

/-- The rows that were found when the state was written. -/
def rowsWritten (state : JobState) (history : List Mark) : List CellJob :=
  history.filterMap fun
    | .wrote row last => if last = state then some row else none
    | _ => none

theorem mem_rowsWritten {state : JobState} {row : CellJob} :
    row ∈ rowsWritten state history ↔ Mark.wrote row state ∈ history := by
  rw [rowsWritten, List.mem_filterMap]
  constructor
  · rintro ⟨mark, inside, found⟩
    split at found
    · split at found
      · rename_i same
        cases found
        rw [← same]
        exact inside
      · cases found
    · cases found
  · intro inside
    exact ⟨_, inside, if_pos rfl⟩

instance : Decidable (Begun jobId history) :=
  decidable_of_iff (∃ row ∈ rowsWritten .started history, row.jobId = jobId) <| by
    simp only [mem_rowsWritten, Begun]

/-- The job was cancelled. -/
def Withdrawn (jobId : String) (history : List Mark) : Prop :=
  ∃ row, Mark.wrote row .cancelled ∈ history ∧ row.jobId = jobId

instance : Decidable (Withdrawn jobId history) :=
  decidable_of_iff (∃ row ∈ rowsWritten .cancelled history, row.jobId = jobId) <| by
    simp only [mem_rowsWritten, Withdrawn]

/-- When a job is leased, no other job of its cell holds a lease without having been started. -/
def LeasesFollowed (earlier : List Mark) : Mark → Prop
  | .wrote row .leased => ∀ other ∈ rowsWritten .leased earlier, other.cellName = row.cellName →
      written other.jobId earlier = some .leased → Begun other.jobId earlier
  | _ => True

instance : Decidable (LeasesFollowed earlier mark) := by
  unfold LeasesFollowed
  split <;> infer_instance

/-- A job is started for the first time only when every job of its cell that was enqueued
before it was started or cancelled. -/
def InOrder (jobs : List CellJob) (earlier : List Mark) : Mark → Prop
  | .wrote row .started => Begun row.jobId earlier ∨ ∀ j ∈ jobs, j.cellName = row.cellName →
      j.enqueueSeq < row.enqueueSeq → Begun j.jobId earlier ∨ Withdrawn j.jobId earlier
  | _ => True

instance : ∀ mark, Decidable (InOrder jobs earlier mark)
  | .wrote _ .started => by dsimp only [InOrder]; infer_instance
  | .wrote _ .queued | .wrote _ .leased | .wrote _ .finished | .wrote _ .cancelled | .made .. |
    .attached .. | .started .. | .requeued .. | .emitted .. | .polled .. | .applied .. |
    .timedOut .. | .stopped .. | .died .. | .journaled .. | .moved .. | .spawned .. |
    .restarted => instDecidableTrue

section Marks

/-- What was written last is there as a mark. -/
theorem marked_of_written {state : JobState} (wrote : written jobId history = some state) :
    state = .queued ∨ ∃ row, Mark.wrote row state ∈ history ∧ row.jobId = jobId := by
  have inside : ∀ {mark : Mark} {earlier : List Mark},
      (state = .queued ∨ ∃ row, Mark.wrote row state ∈ earlier ∧ row.jobId = jobId) →
      state = .queued ∨ ∃ row, Mark.wrote row state ∈ mark :: earlier ∧ row.jobId = jobId :=
    fun found => found.imp id fun ⟨row, marked, named⟩ => ⟨row, List.mem_cons_of_mem _ marked, named⟩
  induction history with
  | nil => cases wrote
  | cons mark earlier ih =>
    cases mark with
    | wrote row last =>
      simp only [written] at wrote
      split at wrote
      · rename_i named
        cases wrote
        exact .inr ⟨row, List.mem_cons_self, named⟩
      · exact inside (ih wrote)
    | requeued id =>
      simp only [written] at wrote
      split at wrote
      · cases wrote
        exact .inl rfl
      · exact inside (ih wrote)
    | _ => exact inside (ih wrote)

/-- Another job that is leased was leased before the job that was leased last. -/
theorem leased_before_last (last : lastLease history = some jobId) {other : String}
    (apart : other ≠ jobId) (leased : written other history = some .leased) :
    ∃ later row earlier, history = later ++ .wrote row .leased :: earlier ∧ row.jobId = jobId ∧
      written other earlier = some .leased := by
  have further : ∀ {mark : Mark} {rest : List Mark},
      (∃ later row earlier, rest = later ++ .wrote row .leased :: earlier ∧ row.jobId = jobId ∧
        written other earlier = some .leased) →
      ∃ later row earlier, mark :: rest = later ++ .wrote row .leased :: earlier ∧
        row.jobId = jobId ∧ written other earlier = some .leased := by
    rintro mark rest ⟨later, row, earlier, rfl, named, held⟩
    exact ⟨mark :: later, row, earlier, rfl, named, held⟩
  induction history with
  | nil => cases last
  | cons mark rest ih =>
    cases mark with
    | wrote row state =>
      simp only [written] at leased
      cases state with
      | leased =>
        have named : row.jobId = jobId := Option.some.inj last
        rw [if_neg fun same => apart (same.symm.trans named)] at leased
        exact ⟨[], row, rest, rfl, named, leased⟩
      | _ =>
        split at leased
        · cases leased
        · exact further (ih last leased)
    | requeued id =>
      simp only [written] at leased
      split at leased
      · cases leased
      · exact further (ih last leased)
    | _ => exact further (ih last leased)

end Marks

section Rows

theorem fixed_updateJob {st : Store} {id : String} {f : CellJob → CellJob}
    (keeps : ∀ j, (f j).fixed = j.fixed) :
    (∀ old ∈ st.jobs, ∃ j ∈ (st.updateJob id f).jobs, j.fixed = old.fixed) ∧
      ∀ j ∈ (st.updateJob id f).jobs, ∃ old ∈ st.jobs, j.fixed = old.fixed := by
  constructor
  · intro old stored
    refine ⟨_, mem_updateJob.mpr ⟨old, stored, rfl⟩, ?_⟩
    split
    · exact keeps old
    · rfl
  · intro j member
    obtain ⟨old, stored, rfl⟩ := mem_updateJob.mp member
    refine ⟨old, stored, ?_⟩
    split
    · exact keeps old
    · rfl

/-- Rows stay, and new ones come to the end of their queue. -/
theorem JobStep.rows (step : JobStep w jobs history) :
    (∀ old ∈ w.store.jobs, ∃ j ∈ jobs, j.fixed = old.fixed) ∧
      ∀ j ∈ jobs, (∃ old ∈ w.store.jobs, j.fixed = old.fixed) ∨
        Enqueues w.store j ∧ history = w.history := by
  have updated : ∀ {id : String} {f : CellJob → CellJob}, (∀ j, (f j).fixed = j.fixed) →
      (∀ old ∈ w.store.jobs, ∃ j ∈ (w.store.updateJob id f).jobs, j.fixed = old.fixed) ∧
        ∀ j ∈ (w.store.updateJob id f).jobs, (∃ old ∈ w.store.jobs, j.fixed = old.fixed) ∨
          Enqueues w.store j ∧ history = w.history :=
    fun keeps => ⟨(fixed_updateJob keeps).1, fun j member => .inl ((fixed_updateJob keeps).2 j member)⟩
  cases step with
  | aside marks _ => exact ⟨fun old stored => ⟨old, stored, rfl⟩, fun j stored => .inl ⟨j, stored, rfl⟩⟩
  | enqueued job enqueues =>
    constructor
    · exact fun old stored => ⟨old, List.mem_append_left _ stored, rfl⟩
    · intro j member
      rcases List.mem_append.mp member with old | new
      · exact .inl ⟨j, old, rfl⟩
      · rw [List.mem_singleton.mp new]
        exact .inr ⟨enqueues, rfl⟩
  | accepted id now engineTurnId => exact updated fun _ => rfl
  | leased row expires _ _ _ => exact updated (f := .leasedUntil expires) fun _ => rfl
  | begun row _ _ => exact updated (f := .setState .started) fun _ => rfl
  | finished row _ _ => exact updated (f := .setState .finished) fun _ => rfl
  | cancelled row _ _ => exact updated (f := .setState .cancelled) fun _ => rfl
  | requeued id _ => exact updated (f := CellJob.requeue) fun _ => rfl

/-- The numbers of each cell increase in the order of the table. -/
def Numbered (jobs : List CellJob) : Prop :=
  jobs.Pairwise fun a b => a.cellName = b.cellName → a.enqueueSeq < b.enqueueSeq

theorem Numbered.updated {st : Store} (numbered : Numbered st.jobs) {id : String}
    {f : CellJob → CellJob} (keeps : ∀ j, (f j).fixed = j.fixed) :
    Numbered (st.updateJob id f).jobs := by
  refine List.pairwise_map.mpr (numbered.imp fun {a b} increases => ?_)
  have same : ∀ j : CellJob, (if decide (j.jobId = id) = true then f j else j).fixed = j.fixed := by
    intro j
    split
    · exact keeps j
    · rfl
  obtain ⟨_, _, cellA, seqA⟩ := CellJob.fixed_inj (same a)
  obtain ⟨_, _, cellB, seqB⟩ := CellJob.fixed_inj (same b)
  rw [cellA, cellB, seqA, seqB]
  exact increases

theorem JobStep.numbered (step : JobStep w jobs history) (numbered : Numbered w.store.jobs) :
    Numbered jobs := by
  cases step with
  | aside marks _ => exact numbered
  | enqueued job enqueues =>
    refine List.pairwise_append.mpr ⟨numbered, List.pairwise_singleton _ _, ?_⟩
    intro j stored new single inCell
    rw [List.mem_singleton.mp single] at inCell ⊢
    exact enqueues.last j stored inCell
  | accepted id now engineTurnId => exact numbered.updated fun _ => rfl
  | leased row expires _ _ _ => exact numbered.updated (f := .leasedUntil expires) fun _ => rfl
  | begun row _ _ => exact numbered.updated (f := .setState .started) fun _ => rfl
  | finished row _ _ => exact numbered.updated (f := .setState .finished) fun _ => rfl
  | cancelled row _ _ => exact numbered.updated (f := .setState .cancelled) fun _ => rfl
  | requeued id _ => exact numbered.updated (f := CellJob.requeue) fun _ => rfl

end Rows

section Order

/-- The rows that the marks carry are stored, and what was finished was begun. -/
structure Remembers (jobs : List CellJob) (history : List Mark) : Prop where
  rows : ∀ row state, Mark.wrote row state ∈ history → ∃ j ∈ jobs, j.fixed = row.fixed
  finished : ∀ row, Mark.wrote row .finished ∈ history → Begun row.jobId history

/-- The rows that a step marks are stored. -/
theorem JobStep.marks (step : JobStep w jobs history) :
    ∃ marks, history = marks ++ w.history ∧ ∀ row state, Mark.wrote row state ∈ marks →
      row ∈ w.store.jobs ∧ (state = .finished → Begun row.jobId w.history) := by
  have one : ∀ {row : CellJob} {state : JobState}, row ∈ w.store.jobs →
      (state = .finished → Begun row.jobId w.history) →
      ∀ row' state', Mark.wrote row' state' ∈ [Mark.wrote row state] →
        row' ∈ w.store.jobs ∧ (state' = .finished → Begun row'.jobId w.history) := by
    intro row state stored begun row' state' inside
    cases List.mem_singleton.mp inside
    exact ⟨stored, begun⟩
  cases step with
  | aside marks aside =>
    exact ⟨marks, rfl, fun row state inside => nomatch aside _ inside⟩
  | enqueued job _ => exact ⟨[], rfl, fun _ _ inside => nomatch inside⟩
  | accepted id now engineTurnId => exact ⟨[], rfl, fun _ _ inside => nomatch inside⟩
  | leased row expires stored _ _ => exact ⟨[_], rfl, one stored fun ends => nomatch ends⟩
  | begun row leased _ => exact ⟨[_], rfl, one leased.stored fun ends => nomatch ends⟩
  | finished row stored begun => exact ⟨[_], rfl, one stored fun _ => begun⟩
  | cancelled row stored _ => exact ⟨[_], rfl, one stored fun ends => nomatch ends⟩
  | requeued id _ => exact ⟨[.requeued id], rfl, fun _ _ inside => by simp at inside⟩

theorem Begun.append {marks : List Mark} (begun : Begun jobId history) :
    Begun jobId (marks ++ history) := by
  obtain ⟨row, inside, named⟩ := begun
  exact ⟨row, List.mem_append_right _ inside, named⟩

theorem JobStep.remembers (step : JobStep w jobs history)
    (remembers : Remembers w.store.jobs w.history) : Remembers jobs history := by
  obtain ⟨marks, rfl, marked⟩ := step.marks
  constructor
  · intro row state inside
    rcases List.mem_append.mp inside with new | old
    · exact step.rows.1 row (marked row state new).1
    · obtain ⟨j, stored, same⟩ := remembers.rows row state old
      obtain ⟨j', stored', same'⟩ := step.rows.1 j stored
      exact ⟨j', stored', same'.trans same⟩
  · intro row inside
    rcases List.mem_append.mp inside with new | old
    · exact ((marked row .finished new).2 rfl).append
    · exact (remembers.finished row old).append

/-- A job that is leased when another one of its cell is started was started before. -/
theorem begun_of_leased (inv : Inv w) (accounts : Accounts w.store.jobs w.history)
    (remembers : Remembers w.store.jobs w.history) (fits : Each LeasesFollowed w.history)
    (row : CellJob) (stored : row ∈ w.store.jobs) (last : lastLease w.history = some row.jobId)
    {j : CellJob} (stored' : j ∈ w.store.jobs) (inCell : j.cellName = row.cellName)
    (apart : j.jobId ≠ row.jobId) (leased : j.state = .leased) : Begun j.jobId w.history := by
  have wrote := accounts.wrote stored' (by decide) leased
  obtain ⟨later, row', earlier, split, named, held⟩ := leased_before_last last apart wrote
  -- Marks carry rows as they are stored, so both jobs are of this cell.
  have known : ∀ {r : CellJob} {state : JobState}, Mark.wrote r state ∈ w.history →
      ∀ {k : CellJob}, k ∈ w.store.jobs → r.jobId = k.jobId → r.cellName = k.cellName := by
    intro r state inside k there same
    obtain ⟨k', there', fixed⟩ := remembers.rows r state inside
    obtain ⟨sameId, _, sameCell, _⟩ := CellJob.fixed_inj fixed
    rw [← sameCell, inv.job_unique there' there (sameId.trans same)]
  have inside : ∀ {mark}, mark ∈ earlier → mark ∈ w.history := by
    intro mark before
    rw [split]
    exact List.mem_append_right _ (List.mem_cons_of_mem _ before)
  rcases marked_of_written held with queued | ⟨other, marked, sameId⟩
  · cases queued
  · have here : Mark.wrote row' .leased ∈ w.history := by
      rw [split]
      exact List.mem_append_right _ List.mem_cons_self
    have sameCell : other.cellName = row'.cellName := by
      rw [known (inside marked) stored' sameId, known here stored named, inCell]
    rw [split] at fits ⊢
    have begun := fits.at_mark other (mem_rowsWritten.mpr marked) sameCell (sameId ▸ held)
    obtain ⟨r, before, same⟩ := begun
    exact ⟨r, List.mem_append_right _ (List.mem_cons_of_mem _ before), same.trans sameId⟩

/-- A job is started after the earlier ones of its cell. -/
theorem Leased.in_order {row : CellJob} (leased : Leased w.store row)
    (last : lastLease w.history = some row.jobId) (inv : Inv w)
    (accounts : Accounts w.store.jobs w.history) (remembers : Remembers w.store.jobs w.history)
    (fits : Each LeasesFollowed w.history) : ∀ j ∈ w.store.jobs, j.cellName = row.cellName →
      j.enqueueSeq < row.enqueueSeq → Begun j.jobId w.history ∨ Withdrawn j.jobId w.history := by
  intro j stored inCell before
  have wrote : ∀ {state : JobState}, state ≠ .queued → j.state = state →
      ∃ r, Mark.wrote r state ∈ w.history ∧ r.jobId = j.jobId :=
    fun left holds => (marked_of_written (accounts.wrote stored left holds)).resolve_left left
  cases holds : j.state with
  | queued => exact absurd (leased.first j stored inCell holds) (Nat.not_le.mpr before)
  | leased =>
    have apart : j.jobId ≠ row.jobId := by
      intro same
      rw [inv.job_unique stored leased.stored same] at before
      exact Nat.lt_irrefl _ before
    exact .inl (begun_of_leased inv accounts remembers fits row leased.stored last stored inCell
      apart holds)
  | started => exact absurd holds (leased.unoccupied j stored inCell)
  | finished =>
    obtain ⟨r, inside, named⟩ := wrote (by decide) holds
    exact .inl (named ▸ remembers.finished r inside)
  | cancelled => exact .inr (wrote (by decide) holds)

/-- The order stays what it is when rows are written and new ones come to the end. -/
theorem JobStep.in_order (step : JobStep w jobs history)
    (remembers : Remembers w.store.jobs w.history) {earlier : List Mark} {mark : Mark}
    (inside : mark ∈ w.history) (ordered : InOrder w.store.jobs earlier mark) :
    InOrder jobs earlier mark := by
  unfold InOrder at ordered ⊢
  split
  · rename_i row
    refine ordered.imp id fun before j member inCell less => ?_
    rcases step.rows.2 j member with ⟨old, stored, same⟩ | ⟨enqueues, _⟩
    · obtain ⟨sameId, _, sameCell, sameSeq⟩ := CellJob.fixed_inj same
      rw [sameId]
      exact before old stored (sameCell.symm.trans inCell) (sameSeq ▸ less)
    · obtain ⟨old, stored, same⟩ := remembers.rows row _ inside
      obtain ⟨_, _, sameCell, sameSeq⟩ := CellJob.fixed_inj same
      have later := enqueues.last old stored (sameCell.trans inCell.symm)
      omega
  · trivial

theorem JobStep.ordered (step : JobStep w jobs history) (inv : Inv w)
    (accounts : Accounts w.store.jobs w.history) (remembers : Remembers w.store.jobs w.history)
    (fits : Each LeasesFollowed history) (ordered : Each (InOrder w.store.jobs) w.history) :
    Each (InOrder jobs) history := by
  have kept : Each (InOrder jobs) w.history := by
    apply ordered.imp_of_mem
    intro earlier mark inside fits
    exact step.in_order remembers inside fits
  cases step with
  | aside marks aside =>
    apply kept.append
    intro mark inside earlier
    have other := aside mark inside
    cases mark with
    | wrote row state => cases other
    | _ => trivial
  | begun row leased last =>
    have before := leased.in_order last inv accounts remembers fits.1
    refine ⟨kept, .inr fun j member inCell less => ?_⟩
    obtain ⟨old, stored, same⟩ := (fixed_updateJob (f := .setState .started) fun _ => rfl).2 j member
    obtain ⟨sameId, _, sameCell, sameSeq⟩ := CellJob.fixed_inj same
    rw [sameId]
    exact before old stored (sameCell.symm.trans inCell) (sameSeq ▸ less)
  | enqueued job _ => exact kept
  | accepted id now engineTurnId => exact kept
  | _ => exact ⟨kept, trivial⟩

end Order

/-- The numbers of the jobs of a cell always increase in the order in which they were
enqueued. In every run in which no job is leased while another one of its cell holds a
lease that no start has followed, jobs are started for the first time in this order. -/
theorem jobs_start_in_order [Platform] {w : World} {c : FabricConfig} (blank : Blank w)
    (reached : service.Reaches w c) :
    Numbered c.shared.store.jobs ∧ (Each LeasesFollowed c.shared.history →
      Each (InOrder c.shared.store.jobs) c.shared.history) := by
  constructor
  · apply always (P := fun s => Numbered s.store.jobs) blank reached
    · rw [blank.store]
      exact .nil
    · exact fun _ _ _ step _ numbered => step.jobStep.numbered numbered
  · intro fits
    have kept : Each (InOrder c.shared.store.jobs) c.shared.history ∧
        Accounts c.shared.store.jobs c.shared.history ∧
        Remembers c.shared.store.jobs c.shared.history := by
      apply always_where (P := fun s => Each (InOrder s.store.jobs) s.history ∧
        Accounts s.store.jobs s.history ∧ Remembers s.store.jobs s.history) blank reached fits
      · rw [blank.store, blank.history]
        exact ⟨trivial, .initial, fun _ _ inside => (by cases inside), fun _ inside => (by cases inside)⟩
      · intro _ s t step good fits ⟨ordered, accounts, remembers⟩
        refine ⟨?_, step.jobStep.accounts accounts, step.jobStep.remembers remembers⟩
        exact step.jobStep.ordered good.1 accounts remembers fits ordered
    exact kept.1

/-- A follow-up job is started after the job before it. -/
theorem jobs_start_in_order_twice : ∃ c, sampleService.Reaches blankWorld c ∧
    (rowsWritten .started c.shared.history).map (·.enqueueSeq) = [2, 1] ∧
    Numbered c.shared.store.jobs ∧ Each (InOrder c.shared.store.jobs) c.shared.history := by
  let _ := Platform.sample
  have ran : (sampleService.runs (System.dormant blankWorld) (firstAnswer ++
      sendingTask 1 firstThread 1783242003 ++ ticking 40 1783242004)).map (fun c => decide (
        Each LeasesFollowed c.shared.history ∧
          (rowsWritten .started c.shared.history).map (·.enqueueSeq) = [2, 1])) = some true := by
    decide +kernel
  obtain ⟨c, run, facts⟩ := Option.map_eq_some_iff.mp ran
  obtain ⟨fits, starts⟩ := of_decide_eq_true facts
  have reached : sampleService.Reaches blankWorld c := System.leads_of_runs _ run
  have ⟨numbered, ordered⟩ := jobs_start_in_order blankWorld_blank reached
  exact ⟨c, reached, starts, numbered, ordered fits⟩

/-- The daemon stops between the lease and the start of the first job, and the job that
was enqueued after it is leased and started. -/
theorem jobs_start_out_of_order : ∃ c, sampleService.Reaches blankWorld c ∧
    ¬ Each (InOrder c.shared.store.jobs) c.shared.history := by
  let _ := Platform.sample
  have ran : (sampleService.runs (System.dormant blankWorld) (firstLease ++
      sendingTask 1 firstThread 1783242001 ++ [start 1783242002] ++
      ticking 20 1783242003)).map (fun c => decide (
        ¬ Each (InOrder c.shared.store.jobs) c.shared.history)) = some true := by
    decide +kernel
  obtain ⟨c, run, facts⟩ := Option.map_eq_some_iff.mp ran
  exact ⟨c, System.leads_of_runs _ run, of_decide_eq_true facts⟩

end Crewd.Fabric
