import Crewd.Bus.Runs

/-! The delivery state machine over whole runs. Every update of a row is an edge of
the table or a pull, as long as no attempt failure is recorded on a row that was
pulled between its claim and the outcome of its adapter. -/
namespace Crewd.Bus
open Autocommit Concurrent History Table

/-- A row moves along an edge of the table or a pull edge from the state that it was
left in, and no row is inserted twice. -/
def Lawful (passed : List Passage) : Passage → Prop
  | .moved cause messageId recipient before after =>
    stateOf messageId recipient passed = some before ∧
      (transitionAllowed before after = true ∨
        cause = .pulled ∧ before.settled = false ∧ after = .delivered)
  | .enqueued env recipient => stateOf env.messageId recipient passed = none
  | _ => True

/-- No attempt failure is recorded on a row that has been delivered. -/
def RetriesClaimed (_ : List Passage) : Passage → Prop
  | .moved .retried _ _ before _ => before ≠ .delivered
  | _ => True

instance : Decidable (RetriesClaimed passed mark) := by
  unfold RetriesClaimed
  split <;> infer_instance

/-- What was settled stays settled, but for the acknowledgement of a delivery. -/
def Lasting (_ : List Passage) : Passage → Prop
  | .moved _ _ _ before after => before.settled = true → before = .delivered ∧ after = .acked
  | _ => True

theorem Lawful.lasting (lawful : Lawful passed mark) : Lasting passed mark := by
  cases mark with
  | moved cause m r before after =>
    rintro settled
    rcases lawful.2 with allowed | ⟨_, open_, _⟩
    · revert settled allowed
      cases before <;> cases after <;> decide
    · rw [open_] at settled
      cases settled
  | _ => trivial

/-- A row whose state is on record was enqueued. -/
theorem enqueued_of_stateOf {passed : List Passage} (each : Each Lawful passed)
    (known : stateOf messageId recipient passed = some state) :
    ∃ env, (env, recipient) ∈ enqueues passed ∧ env.messageId = messageId := by
  induction passed generalizing state with
  | nil => cases known
  | cons passage earlier ih =>
    obtain ⟨before, fit⟩ := each
    cases passage with
    | moved cause m r old new =>
      by_cases same : m = messageId ∧ r = recipient
      · rw [same.1, same.2] at fit
        exact ih before fit.1
      · simp only [stateOf, if_neg same] at known
        exact ih before known
    | enqueued env r =>
      by_cases same : env.messageId = messageId ∧ r = recipient
      · exact ⟨env, by rw [← same.2]; exact List.mem_cons_self, same.1⟩
      · simp only [stateOf, if_neg same] at known
        obtain ⟨other, member, id⟩ := ih before known
        exact ⟨other, List.mem_cons_of_mem _ member, id⟩
    | _ => exact ih before known

theorem Moves.edge {w : World} (moves : Moves self w cause p f) (member : d ∈ w.store.deliveries)
    (touched : p d = true) (unpulled : cause = .retried → d.state ≠ .delivered) :
    transitionAllowed d.state (f d).state = true ∨
      cause = .pulled ∧ d.state.settled = false ∧ (f d).state = .delivered := by
  cases moves with
  | released now _ =>
    simp only [Delivery.lapsed, Bool.and_eq_true, decide_eq_true_eq] at touched
    rw [touched.1]
    exact .inl rfl
  | claimed messageId recipient lease _ _ queued =>
    rw [queued d member touched]
    exact .inl rfl
  | outcome messageId recipient target _ _ allowed => exact .inl (allowed d member touched)
  | exhausted messageId recipient attempts _ live
  | requeued messageId recipient attempts retryAt _ live _ =>
    rw [(live d member touched).resolve_right (unpulled rfl)]
    exact .inl rfl
  | expired messageId recipient _ pending =>
    have waiting := pending d member touched
    simp only [Delivery.pending, Bool.decide_or, Bool.or_eq_true, decide_eq_true_eq] at waiting
    rcases waiting with state | state <;> rw [state] <;> exact .inl rfl
  | pulled messageId recipient pending =>
    exact .inr ⟨rfl, Delivery.pending_iff.mp (pending d member touched), rfl⟩

theorem settled_along {before after : DeliveryState} {cause : Cause}
    (edge : transitionAllowed before after = true ∨
      cause = .pulled ∧ before.settled = false ∧ after = .delivered)
    (settled : before.settled = true) : after.settled = true := by
  rcases edge with allowed | ⟨_, unsettled, _⟩
  · revert settled allowed
    cases before <;> cases after <;> decide
  · rw [unsettled] at settled
    cases settled

/-- An update leaves a settled row settled, unless it records a failure of a pulled one. -/
theorem Moves.lasting {w : World} (moves : Moves self w cause p f) (member : d ∈ w.store.deliveries)
    (touched : p d = true) (unpulled : cause = .retried → d.state ≠ .delivered)
    (settled : d.state.settled = true) : (f d).state.settled = true :=
  settled_along (moves.edge member touched unpulled) settled

theorem Change.lawful [Platform] (change : Change actor s t) (good : Good s)
    (fitting : Each RetriesClaimed (passages t.history)) (lawful : Each Lawful (passages s.history)) :
    Each Lawful (passages t.history) := by
  cases change with
  | still _ same => rwa [same]
  | moved moves =>
    rw [passages_moveRows] at fitting ⊢
    refine each_moves (good.inv.deliveriesOnce.sublist (List.filter_sublist.map _)) lawful
      fun d member rest only same => ⟨?_, ?_⟩
    · rw [same]
      exact good.passing.traced d (List.mem_filter.mp member).1
    · obtain ⟨_, fit⟩ := fits_moves fitting member
      refine moves.edge (List.mem_filter.mp member).1 (List.mem_filter.mp member).2 ?_
      rintro rfl
      exact fit
  | enqueued env recipient known new _ =>
    refine ⟨lawful, ?_⟩
    cases state : stateOf env.messageId recipient (passages s.history) with
    | none => exact state
    | some _ =>
      obtain ⟨other, enqueued, id⟩ := enqueued_of_stateOf lawful state
      obtain ⟨d, member, hit⟩ := good.passing.row_of_enqueued enqueued
      rw [id, new d member] at hit
      cases hit
  | noted passage notes =>
    refine ⟨lawful, ?_⟩
    cases notes <;> trivial

/-- In a run in which no attempt failure is recorded on a pulled row, every update of
a row is lawful and the rows are where the updates left them. -/
theorem updates_lawful [Platform] (blank : Blank w) (path : service.Reaches w c)
    (claimed : Each RetriesClaimed (passages c.shared.history)) :
    Each Lawful (passages c.shared.history) ∧ Each Lasting (passages c.shared.history) ∧
      ∀ d ∈ c.shared.store.deliveries,
        stateOf d.envelopeId d.recipient (passages c.shared.history) = some d.state := by
  have lawful : Each Lawful (passages c.shared.history) := by
    refine always_where (P := fun s => Each Lawful (passages s.history)) blank path claimed ?_
      fun actor s t change good fitting lawful => change.lawful good fitting lawful
    rw [blank.history]
    trivial
  exact ⟨lawful, lawful.imp fun _ _ => Lawful.lasting, (good_reachable blank path).passing.traced⟩

section Sample

theorem updates_lawful_delivered : ∃ c, sampleService.Reaches blankWorld c ∧
    c.shared.store.deliveries.map (·.state) = [.delivered] ∧
    Each Lawful (passages c.shared.history) := by
  let _ := Platform.sample
  have ran : (sampleService.runs (System.dormant blankWorld)
      (offeredPing .delivered ++ loopMoves 1 1783242003 .notReady)).map (fun c => decide (
        c.shared.store.deliveries.map (·.state) = [.delivered] ∧
        Each RetriesClaimed (passages c.shared.history))) = some true := by
    decide +kernel
  obtain ⟨c, run, facts⟩ := Option.map_eq_some_iff.mp ran
  obtain ⟨rows, claimed⟩ := of_decide_eq_true facts
  have path : sampleService.Reaches blankWorld c := System.leads_of_runs _ run
  exact ⟨c, path, rows, (updates_lawful blankWorld_blank path claimed).1⟩

/-- The reviewer pulls the message while its adapter is busy, and the adapter reports
a transient failure: the delivered row is queued again. -/
theorem retry_revives_pulled : ∃ c, sampleService.Reaches blankWorld c ∧
    c.shared.store.deliveries.map (·.state) = [.queued] ∧
    .moved .retried "0197d8a0-0000-7000-8000-000000000000" "reviewer" .delivered .queued ∈
      passages c.shared.history ∧
    ¬ Each Lawful (passages c.shared.history) ∧ ¬ Each Lasting (passages c.shared.history) := by
  have ran : (sampleService.runs (System.dormant blankWorld)
      (offeredPing .transientFailure ++ pulling 1 "reviewer" 1783242002 ++
        loopMoves 1 1783242003 .notReady)).map (fun c => decide (
          c.shared.store.deliveries.map (·.state) = [.queued] ∧
          .moved .retried "0197d8a0-0000-7000-8000-000000000000" "reviewer" .delivered .queued ∈
            passages c.shared.history)) = some true := by
    decide +kernel
  obtain ⟨c, run, facts⟩ := Option.map_eq_some_iff.mp ran
  obtain ⟨rows, revived⟩ := of_decide_eq_true facts
  have undone : ¬ Each Lasting (passages c.shared.history) := by
    intro lasting
    obtain ⟨before, fit⟩ := lasting.fits_of_mem revived
    cases (fit rfl).2
  exact ⟨c, System.leads_of_runs _ run, rows, revived,
    fun lawful => undone (lawful.imp fun _ _ => Lawful.lasting), undone⟩

end Sample
end Crewd.Bus
