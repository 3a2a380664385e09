import Crewd.Fabric.Soundness

/-! Jobs whose turn was accepted by its engine. A job is started again only after it was
queued again, which looks at the acceptance that is stored and not at the one that the
engine has sent; in between lies the condition. -/
namespace Crewd.Fabric
open Autocommit Concurrent History

variable {history : List Mark} {jobId : String} {turn : Nat}

/-- The turns that were started for the job. -/
def turnsOf (jobId : String) (history : List Mark) : List Nat := history.filterMap fun
  | .started other _ _ _ turn _ => if other = jobId then some turn else none
  | _ => none

/-- The jobs that the turn was started for. -/
def jobsOf (turn : Nat) (history : List Mark) : List String := history.filterMap fun
  | .started jobId _ _ _ other _ => if other = turn then some jobId else none
  | _ => none

/-- The turns that their engine has accepted. -/
def acceptedTurns (history : List Mark) : List Nat := history.filterMap fun
  | .emitted turn (.accepted _) => some turn
  | _ => none

/-- The engine has accepted a turn of the job. -/
def EngineAccepted (jobId : String) (history : List Mark) : Prop :=
  ∃ turn ∈ turnsOf jobId history, turn ∈ acceptedTurns history

/-- No turn is started for a job of which the engine has accepted one. -/
def StartedOnce (earlier : List Mark) : Mark → Prop
  | .started jobId _ _ _ _ _ => ¬ EngineAccepted jobId earlier
  | _ => True

/-- A job is queued again only while the engine has accepted none of its turns, and the
engine accepts no turn of a job that was queued again since its last start. -/
def Undelivered (earlier : List Mark) : Mark → Prop
  | .requeued jobId => ¬ EngineAccepted jobId earlier
  | .emitted turn (.accepted _) => ∀ jobId ∈ jobsOf turn earlier, Spent jobId earlier
  | _ => True

/-- A job is started again only after it was queued again. -/
def StartsUnspent (earlier : List Mark) : Mark → Prop
  | .started jobId _ _ _ _ _ => ¬ Spent jobId earlier
  | _ => True

theorem mem_jobsOf : jobId ∈ jobsOf turn history ↔ turn ∈ turnsOf jobId history := by
  simp only [jobsOf, turnsOf, List.mem_filterMap]
  constructor <;>
  · rintro ⟨mark, member, found⟩
    refine ⟨mark, member, ?_⟩
    cases mark with
    | started other threadId cell context number ok =>
      simp only [Option.ite_none_right_eq_some, Option.some.injEq] at found ⊢
      exact ⟨found.2, found.1⟩
    | _ => cases found

/-- A job that the engine has accepted is not queued again. -/
theorem accepted_spent (undelivered : Each Undelivered history)
    (accepted : EngineAccepted jobId history) : Spent jobId history := by
  induction history with
  | nil => obtain ⟨turn, started, _⟩ := accepted; cases started
  | cons mark earlier ih =>
    obtain ⟨turn, started, sent⟩ := accepted
    have before := ih undelivered.1
    cases mark with
    | started other threadId cell context number ok =>
      by_cases own : other = jobId
      · exact .inl own
      · have started' : turn ∈ turnsOf jobId earlier := by simpa [turnsOf, own] using started
        exact .inr (before ⟨turn, started', sent⟩)
    | requeued other =>
      have stays : EngineAccepted jobId earlier := ⟨turn, started, sent⟩
      refine ⟨?_, before stays⟩
      rintro rfl
      exact undelivered.2 stays
    | emitted number event =>
      by_cases was : turn ∈ acceptedTurns earlier
      · exact before ⟨turn, started, was⟩
      · cases event with
        | accepted id =>
          obtain rfl : turn = number := (List.mem_cons.mp sent).resolve_right was
          exact undelivered.2 jobId (mem_jobsOf.mpr started)
        | _ => exact absurd sent was
    | _ => exact before ⟨turn, started, sent⟩

theorem started_once (unspent : Each StartsUnspent history)
    (undelivered : Each Undelivered history) : Each StartedOnce history := by
  induction history with
  | nil => trivial
  | cons mark earlier ih =>
    refine ⟨ih unspent.1 undelivered.1, ?_⟩
    cases mark with
    | started jobId threadId cell context number ok =>
      exact fun accepted => unspent.2 (accepted_spent undelivered.1 accepted)
    | _ => trivial

theorem Statement.startsUnspent (step : Statement self w w')
    (starts : Each StartsUnspent w.history) : Each StartsUnspent w'.history := by
  refine step.each (fun _ _ _ _ => trivial) (fun mark warrants => ?_) starts
  cases mark with
  | started jobId threadId cell context number ok => exact warrants.2.1
  | _ => trivial

variable [Platform]

/-- In every run in which no job is queued again that its engine has accepted, or accepts
afterwards, no turn is started for a job that its engine has accepted. -/
theorem accepted_jobs_started_once (blank : Blank w) (reached : service.Reaches w c)
    (undelivered : Each Undelivered c.shared.history) : Each StartedOnce c.shared.history := by
  have unspent : Each StartsUnspent c.shared.history := by
    apply always (P := fun s => Each StartsUnspent s.history) blank reached
    · rw [blank.history]
      trivial
    · exact fun _ _ _ step _ starts => step.startsUnspent starts
  exact started_once unspent undelivered

section Sample

def decideSpent (jobId : String) : ∀ history, Decidable (Spent jobId history)
  | [] => .isFalse id
  | mark :: earlier => by
    have := decideSpent jobId earlier
    cases mark with
    | started _ _ _ _ _ _ => exact inferInstanceAs (Decidable (_ ∨ Spent jobId earlier))
    | requeued _ => exact inferInstanceAs (Decidable (_ ∧ Spent jobId earlier))
    | _ => exact this

instance : Decidable (Spent jobId history) := decideSpent jobId history

instance : Decidable (EngineAccepted jobId history) :=
  inferInstanceAs (Decidable (∃ turn ∈ turnsOf jobId history, turn ∈ acceptedTurns history))

instance (earlier : List Mark) : ∀ mark, Decidable (Undelivered earlier mark)
  | .requeued _ | .emitted _ (.accepted _) => by dsimp only [Undelivered]; infer_instance
  | .emitted _ (.note _) | .emitted _ (.final _) | .emitted _ (.failed _) | .wrote .. | .made .. |
    .attached .. | .started .. | .polled .. | .applied .. | .timedOut .. | .stopped .. |
    .died .. | .journaled .. | .moved .. | .spawned .. | .restarted => instDecidableTrue

instance (earlier : List Mark) : ∀ mark, Decidable (StartedOnce earlier mark)
  | .started .. => by dsimp only [StartedOnce]; infer_instance
  | .wrote .. | .made .. | .attached .. | .requeued .. | .emitted .. | .polled .. | .applied .. |
    .timedOut .. | .stopped .. | .died .. | .journaled .. | .moved .. | .spawned .. |
    .restarted => instDecidableTrue

omit [Platform] in
/-- The daemon crashes before the engine has accepted the first turn; the job is started
again and the engine accepts and completes that turn. -/
theorem unaccepted_job_restarted : ∃ c, sampleService.Reaches blankWorld c ∧
    turnsOf "0197d8a0-0000-7000-8000-000000000001" c.shared.history = [16, 7] ∧
    acceptedTurns c.shared.history = [16] ∧ Each StartedOnce c.shared.history := by
  let _ := Platform.sample
  have ran : (sampleService.runs (System.dormant blankWorld) (firstTurn ++ start 1783242040 ::
      ticking 20 1783242041 ++ [emits 16 (.accepted "t1"), emits 16 (.final "done")] ++
        ticking 15 1783242042)).map (fun c => decide (Each Undelivered c.shared.history ∧
          turnsOf "0197d8a0-0000-7000-8000-000000000001" c.shared.history = [16, 7] ∧
          acceptedTurns c.shared.history = [16])) = some true := by
    decide +kernel
  obtain ⟨c, run, facts⟩ := Option.map_eq_some_iff.mp ran
  obtain ⟨undelivered, turns, accepted⟩ := of_decide_eq_true facts
  have reached : sampleService.Reaches blankWorld c := System.leads_of_runs _ run
  exact ⟨c, reached, turns, accepted,
    accepted_jobs_started_once blankWorld_blank reached undelivered⟩

/-- The rows of the jobs that were marked started. -/
def startedRows (history : List Mark) : List CellJob := history.filterMap fun
  | .wrote row .started => some row
  | _ => none

omit [Platform] in
/-- The lease runs out while the engine's acceptance waits to be read: the tick queues the
job again, then stores the acceptance. After a crash the accepted job is started again. -/
theorem accepted_job_restarted : ∃ c, sampleService.Reaches blankWorld c ∧
    ¬ Each StartedOnce c.shared.history ∧
    turnsOf "0197d8a0-0000-7000-8000-000000000001" c.shared.history = [20, 7] ∧
    acceptedTurns c.shared.history = [7] ∧
    (startedRows c.shared.history).map (·.acceptedByEngineAt) =
      [some "2026-07-05T09:00:36Z", none] := by
  let _ := Platform.sample
  have ran : (sampleService.runs (System.dormant blankWorld) (firstTurn ++
      emits 7 (.accepted "t1") :: ticking 12 1783242036 ++ start 1783242040 ::
        ticking 20 1783242041)).map (fun c => decide (¬ Each StartedOnce c.shared.history ∧
          turnsOf "0197d8a0-0000-7000-8000-000000000001" c.shared.history = [20, 7] ∧
          acceptedTurns c.shared.history = [7] ∧
          (startedRows c.shared.history).map (·.acceptedByEngineAt) =
            [some "2026-07-05T09:00:36Z", none])) = some true := by
    decide +kernel
  obtain ⟨c, run, facts⟩ := Option.map_eq_some_iff.mp ran
  exact ⟨c, System.leads_of_runs _ run, of_decide_eq_true facts⟩

end Sample
end Crewd.Fabric
