import Crewd.Fabric.Enlisting

/-! Threads that have left `running` run again for jobs of their own that wait for it:
follow-ups enqueued before or since, and jobs that were put back in the queue. -/
namespace Crewd.Fabric
open Autocommit Concurrent History Table

/-- The job is in the queue, or leased and not started. -/
def CellJob.waiting (j : CellJob) : Prop := j.state = .queued ∨ j.state = .leased

/-- Why a job can wait after the state `s`: it waited then, or it is new, or it was put
back in the queue since. -/
def Origin (s : World) (jobId : String) (history : List Mark) : Prop :=
  (∃ j ∈ s.store.jobs, j.jobId = jobId ∧ j.waiting) ∨ (∀ j ∈ s.store.jobs, j.jobId ≠ jobId) ∨
    ∃ marks, history = marks ++ s.history ∧ Mark.requeued jobId ∈ marks

/-- A job that is marked started has waited, unless it was cancelled after its lease. -/
def Awaited (s : World) (earlier : List Mark) : Mark → Prop
  | .wrote row .started => s.history <:+ earlier →
      row.state = .cancelled ∨ Origin s row.jobId earlier
  | _ => True

/-- A thread is set running directly after one of its jobs was marked started. -/
def RunsOwn (earlier : List Mark) : Mark → Prop
  | .moved id _ .running _ => ∃ row rest, earlier = .wrote row .started :: rest ∧
      row.crewdThreadId = id
  | _ => True

variable {s w w' : World} {jobId : String} {history : List Mark} {jobs : List CellJob}

section Origins

theorem Origin.append (origin : Origin s jobId history) (marks : List Mark) :
    Origin s jobId (marks ++ history) := by
  rcases origin with waited | new | ⟨since, rfl, requeued⟩
  · exact .inl waited
  · exact .inr (.inl new)
  · exact .inr (.inr ⟨marks ++ since, by rw [List.append_assoc], List.mem_append_right _ requeued⟩)

/-- What was done to rows and marks since the state `s`. -/
structure Since (s : World) (jobs : List CellJob) (history : List Mark) : Prop where
  suffix : s.history <:+ history
  stored : ∀ old ∈ s.store.jobs, ∃ j ∈ jobs, j.fixed = old.fixed
  origin : ∀ j ∈ jobs, j.waiting → Origin s j.jobId history
  awaited : Each (Awaited s) history

theorem Since.start (s : World) : Since s s.store.jobs s.history where
  suffix := List.suffix_refl _
  stored old stored := ⟨old, stored, rfl⟩
  origin j stored waiting := .inl ⟨j, stored, rfl, waiting⟩
  awaited := by
    apply Each.of_split
    intro later mark before split
    unfold Awaited
    split
    · intro suffix
      have shorter := suffix.length_le
      rw [split, List.length_append, List.length_cons] at shorter
      omega
    · trivial

/-- An update of one job and the mark of it. -/
theorem Since.updated {st : Store} {mark : Mark} {id : String} {f : CellJob → CellJob}
    (since : Since s st.jobs history) (keeps : ∀ j, (f j).fixed = j.fixed)
    (waits : ∀ j ∈ st.jobs, j.jobId = id → (f j).waiting →
      j.waiting ∨ Origin s j.jobId (mark :: history))
    (awaited : Awaited s history mark) : Since s (st.updateJob id f).jobs (mark :: history) where
  suffix := since.suffix.trans (List.suffix_cons _ _)
  stored old stored := by
    obtain ⟨j, there, same⟩ := since.stored old stored
    obtain ⟨j', there', same'⟩ := (fixed_updateJob keeps).1 j there
    exact ⟨j', there', same'.trans same⟩
  origin j stored waiting := by
    have before : ∀ old ∈ st.jobs, old.waiting → Origin s old.jobId (mark :: history) :=
      fun old there waited => (since.origin old there waited).append [mark]
    obtain ⟨old, there, rfl⟩ := mem_updateJob.mp stored
    split at waiting
    · rename_i named
      rw [if_pos named, (CellJob.fixed_inj (keeps old)).1]
      exact (waits old there named waiting).elim (before old there) fun origin => origin
    · rename_i apart
      rw [if_neg apart]
      exact before old there waiting
  awaited := ⟨since.awaited, awaited⟩

theorem JobStep.since (step : JobStep w jobs history) (inv : Inv w) (since : Since s w.store.jobs w.history) :
    Since s jobs history := by
  cases step with
  | aside marks aside =>
    have free : Each (Awaited s) (marks ++ w.history) := by
      apply since.awaited.append
      intro mark inside earlier
      have other := aside mark inside
      cases mark with
      | wrote row state => cases other
      | _ => trivial
    exact ⟨since.suffix.trans (List.suffix_append _ _), since.stored,
      fun j stored waiting => (since.origin j stored waiting).append marks, free⟩
  | enqueued job enqueues =>
    refine ⟨since.suffix, fun old stored => ?_, fun j stored waiting => ?_, since.awaited⟩
    · obtain ⟨j, there, same⟩ := since.stored old stored
      exact ⟨j, List.mem_append_left _ there, same⟩
    · rcases List.mem_append.mp stored with old | new
      · exact since.origin j old waiting
      · obtain rfl := List.mem_singleton.mp new
        refine .inr (.inl fun old known named => ?_)
        obtain ⟨j', there, same⟩ := since.stored old known
        exact enqueues.fresh j' there ((CellJob.fixed_inj same).1.trans named)
  | accepted id now engineTurnId =>
    have kept := (@fixed_updateJob w.store id (fun j => { j with
      acceptedByEngineAt := some now, engineTurnId := some engineTurnId }) fun _ => rfl).1
    refine ⟨since.suffix, fun old stored => ?_, fun j stored waiting => ?_, since.awaited⟩
    · obtain ⟨j, there, same⟩ := since.stored old stored
      obtain ⟨j', there', same'⟩ := kept j there
      exact ⟨j', there', same'.trans same⟩
    · obtain ⟨old, there, rfl⟩ := mem_updateJob.mp stored
      split at waiting <;> rename_i named
      · rw [if_pos named]
        exact since.origin old there waiting
      · rw [if_neg named]
        exact since.origin old there waiting
  | leased row expires stored queued _ =>
    refine since.updated (f := .leasedUntil expires) (fun _ => rfl) (fun j there named _ => ?_) trivial
    rw [inv.job_unique there stored named]
    exact .inl (.inl queued)
  | begun row leased _ =>
    refine since.updated (f := .setState .started) (fun _ => rfl) ?_ fun _ => ?_
    · rintro j _ _ (waits | waits) <;> cases waits
    · rcases leased.state with waits | cancelled
      · exact .inr (since.origin row leased.stored (.inr waits))
      · exact .inl cancelled
  | finished row _ _ =>
    refine since.updated (f := .setState .finished) (fun _ => rfl) ?_ trivial
    rintro j _ _ (waits | waits) <;> cases waits
  | cancelled row _ _ =>
    refine since.updated (f := .setState .cancelled) (fun _ => rfl) ?_ trivial
    rintro j _ _ (waits | waits) <;> cases waits
  | requeued id _ =>
    refine since.updated (f := CellJob.requeue) (fun _ => rfl) (fun j _ named _ => ?_) trivial
    obtain ⟨marks, split⟩ := since.suffix
    refine .inr (.inr (.inr ⟨.requeued id :: marks, ?_, ?_⟩))
    · rw [← split]
      rfl
    · rw [named]
      exact List.mem_cons_self

end Origins

section Running

theorem Statement.runsOwn (step : Statement self w w') (runs : Each RunsOwn w.history) :
    Each RunsOwn w'.history := by
  refine step.each (fun _ _ _ _ => trivial) (fun mark warrants => ?_) runs
  cases mark with
  | moved id source target alone => cases target <;> exact warrants
  | _ => trivial

end Running

variable [Platform] {c d : FabricConfig}

/-- Why a job of a thread is started that was there in the state `c`: it was waiting or
just being started then, or it was enqueued or put back in the queue since. -/
inductive Restart (c d : FabricConfig) (row : CellJob) (earlier : List Mark) : Prop where
  | waiting (j : CellJob) : j ∈ c.shared.store.jobs → j.jobId = row.jobId → j.waiting →
      Restart c d row earlier
  | starting : c.shared.history = .wrote row .started :: earlier → Restart c d row earlier
  | followedUp : FollowedUp c d row → Restart c d row earlier
  | requeued (marks : List Mark) : earlier = marks ++ c.shared.history →
      .requeued row.jobId ∈ marks → Restart c d row earlier

/-- A thread is set running only right after a job of its own was marked started. Seen from
any earlier state in which the thread is there, this is a job that waited then, or one that
`cell_send_task` enqueued for the thread since, or one that was put back in the queue
since, unless it was cancelled after its lease. -/
theorem threads_restart_for_waiting_jobs (blank : Blank w) (reached : service.Reaches w c)
    (later : service.Leads c d) {t : CellThread} (known : t ∈ c.shared.store.threads)
    {newer earlier : List Mark} {source : ThreadState} {alone : Bool}
    (moved : d.shared.history = newer ++ .moved t.crewdThreadId source .running alone :: earlier)
    (since : c.shared.history <:+ earlier) :
    ∃ row rest, earlier = .wrote row .started :: rest ∧ row.crewdThreadId = t.crewdThreadId ∧
      (row.state = .cancelled ∨ Restart c d row rest) := by
  have there : service.Reaches w d := System.Leads.trans _ reached later
  have ⟨runs, remembers⟩ : Each RunsOwn d.shared.history ∧
      Remembers d.shared.store.jobs d.shared.history := by
    apply always (P := fun s => Each RunsOwn s.history ∧ Remembers s.store.jobs s.history) blank there
    · rw [blank.history]
      exact ⟨trivial, fun _ _ inside => (by cases inside), fun _ inside => (by cases inside)⟩
    · intro _ _ _ step _ ⟨runs, remembers⟩
      exact ⟨step.runsOwn runs, step.jobStep.remembers remembers⟩
  have changes : Since c.shared d.shared.store.jobs d.shared.history := by
    apply lasting (P := fun s => Since c.shared s.store.jobs s.history) blank reached _ (.start _) later
    exact fun _ _ _ step good since => step.jobStep.since good.1 since
  rw [moved] at runs
  obtain ⟨row, rest, rfl, own⟩ := runs.at_mark
  refine ⟨row, rest, rfl, own, ?_⟩
  rcases List.suffix_cons_iff.mp since with starting | suffix
  · exact .inr (.starting starting)
  have awaited := changes.awaited
  rw [moved, List.append_cons] at awaited
  refine (awaited.at_mark suffix).imp_right fun origin => ?_
  rcases origin with ⟨j, stored, named, waits⟩ | new | ⟨marks, split, requeued⟩
  · exact .waiting j stored named waits
  · have inside : Mark.wrote row .started ∈ d.shared.history := by
      rw [moved]
      simp
    obtain ⟨j, stored, fixed⟩ := remembers.rows row .started inside
    obtain ⟨_, followed⟩ := followed_or_stored reached later known
    rcases followed j stored ((fixed_thread fixed).trans own) with ⟨old, there, same⟩ | followedUp
    · exact absurd (CellJob.fixed_inj (same.trans fixed)).1 (new old there)
    · exact .followedUp (followedUp.same fixed)
  · exact .requeued marks split requeued

section Sample

omit [Platform]

/-- In a sample run a thread leaves a state for `running` although the job that it is to
run was stored when it was in that state already. -/
def RestartsStored (source : ThreadState) : Prop :=
  ∃ c d, sampleService.Reaches blankWorld c ∧ sampleService.Leads c d ∧
    ∃ t row rest alone, t ∈ c.shared.store.threads ∧ t.state = source ∧
      d.shared.history = .moved t.crewdThreadId source .running alone :: .wrote row .started :: rest ∧
      c.shared.history <:+ rest ∧ ∃ j ∈ c.shared.store.jobs, j.jobId = row.jobId

/-- Whether the last mark of `d` sets a thread running for a job that `c` has stored. -/
def restartedStored (source : ThreadState) (c d : FabricConfig) : Bool :=
  match d.shared.history with
  | .moved id source' .running _ :: .wrote row .started :: rest => source' = source ∧
    (∃ t ∈ c.shared.store.threads, t.crewdThreadId = id ∧ t.state = source) ∧
    c.shared.history <:+ rest ∧ ∃ j ∈ c.shared.store.jobs, j.jobId = row.jobId
  | _ => false

theorem restarts_of_runs (source : ThreadState) (moves later : List (Move (Input Outside) Request Event))
    (ran : (sampleService.runs (System.dormant blankWorld) moves).bind (fun c =>
      (sampleService.runs c later).map (restartedStored source c)) = some true) :
    RestartsStored source := by
  obtain ⟨c, run, after⟩ := Option.bind_eq_some_iff.mp ran
  obtain ⟨d, run', restarted⟩ := Option.map_eq_some_iff.mp after
  refine ⟨c, d, System.leads_of_runs _ run, System.leads_of_runs _ run', ?_⟩
  unfold restartedStored at restarted
  split at restarted
  · rename_i id source' alone row rest history
    obtain ⟨rfl, ⟨t, known, rfl, state⟩, since, stored⟩ := of_decide_eq_true restarted
    exact ⟨t, row, rest, alone, known, state, history, since, stored⟩
  · cases restarted

/-- A follow-up job waits for the end of the turn before it. -/
def queuedFollowUp : List (Move (Input Outside) Request Event) :=
  firstTurn ++ sendingTask 1 firstThread 1783242002 ++
    [emits 7 (.accepted "t1"), emits 7 (.final "done")] ++ ticking 9 1783242003

/-- A turn fails before the engine has accepted it. -/
def failedUnaccepted : List (Move (Input Outside) Request Event) :=
  firstTurn ++ [emits 7 (.failed "no")] ++ ticking 8 1783242003

theorem threads_restart_for_waiting_jobs_queued : ∃ c d, sampleService.Reaches blankWorld c ∧
    sampleService.Leads c d ∧ ∃ t ∈ c.shared.store.threads, t.state = .idle ∧
      ∃ row rest, row.crewdThreadId = t.crewdThreadId ∧
        (row.state = .cancelled ∨ @Restart .sample c d row rest) := by
  let _ := Platform.sample
  obtain ⟨c, d, reached, later, t, row, rest, alone, known, idle, history, since, _⟩ :=
    restarts_of_runs .idle queuedFollowUp (ticking 7 1783242003) (by decide +kernel)
  have moved : d.shared.history = [] ++ .moved t.crewdThreadId .idle .running alone ::
      .wrote row .started :: rest := history
  obtain ⟨row, rest, _, own, restart⟩ := threads_restart_for_waiting_jobs blankWorld_blank reached
    later known moved (since.trans (List.suffix_cons _ _))
  exact ⟨c, d, reached, later, t, known, idle, row, rest, own, restart⟩

/-- A job restarts its thread although it was enqueued before the thread left `running`. -/
theorem stored_jobs_restart_threads : RestartsStored .idle ∧ RestartsStored .failedUnknown := by
  constructor
  · exact restarts_of_runs .idle queuedFollowUp (ticking 7 1783242003) (by decide +kernel)
  · exact restarts_of_runs .failedUnknown failedUnaccepted (ticking 8 1783242003) (by decide +kernel)

end Sample
end Crewd.Fabric
