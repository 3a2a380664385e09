import Crewd.Bus.Lawful

/-! The events of the delivery loop. The result of a transition is discarded before
its event is appended, so an event is true exactly of outcomes whose transition is
allowed from where the row stands by then and whose statements do not fail. -/
namespace Crewd.Bus
open Autocommit Concurrent History

/-- The event is matched by a move of its row since the outcome was noted. -/
def Truthful (passed : List Passage) : Passage → Prop
  | .announced kind messageId recipient => ∃ before after,
    lastMove passed = some (messageId, recipient, before, after) ∧ before ≠ after ∧
      (kind = "delivered" ∧ (after = .delivered ∨ after = .acked) ∨
        kind = "delivery_failed" ∧ after = .failed)
  | _ => True

/-- The row allows the transition of the outcome, and its statements do not fail. A
transient failure announces nothing unless its own update has failed the row. -/
def Applicable (_ : List Passage) : Passage → Prop
  | .applying _ _ outcome row _ failing =>
    outcome = .transientFailure ∨ outcome = .notReady ∨
      failing = false ∧ row.any fun d => transitionAllowed d.state (outcomeToState outcome)
  | _ => True

instance : ∀ mark, Decidable (Applicable passed mark)
  | .applying .. => by dsimp only [Applicable]; infer_instance
  | .enqueued .. | .moved .. | .swept .. | .claiming .. | .offered .. | .announced .. |
    .pulling .. | .shown .. => instDecidableTrue

theorem mem_of_lastApplying (found : lastApplying passed = some mark) : mark ∈ passed := by
  induction passed with
  | nil => cases found
  | cons passage earlier ih =>
    cases passage with
    | applying m r outcome row maxAttempts failing =>
      cases found
      exact List.mem_cons_self
    | _ => exact List.mem_cons_of_mem _ (ih found)

theorem transition_moves_on (allowed : transitionAllowed before after = true) : before ≠ after := by
  rintro rfl
  revert allowed
  cases before <;> decide

theorem Announces.truthful (announces : Announces passed kind messageId recipient)
    (applicable : Each Applicable passed) :
    Truthful passed (.announced kind messageId recipient) := by
  obtain ⟨outcome, row, maxAttempts, failing, applied, fits, moved, failed⟩ := announces
  by_cases transient : outcome = .transientFailure
  · obtain ⟨before, other, last⟩ := failed transient
    refine ⟨before, .failed, last, other, .inr ⟨?_, rfl⟩⟩
    rcases fits with ⟨_, same | same⟩ | ⟨named, _⟩
    · exact absurd (transient.symm.trans same) (by decide)
    · exact absurd (transient.symm.trans same) (by decide)
    · exact named
  · obtain ⟨_, fit⟩ := applicable.fits_of_mem (mem_of_lastApplying applied)
    rcases fit with same | same | ⟨works, allowed⟩
    · exact absurd same transient
    · rcases fits with ⟨_, other | other⟩ | ⟨_, other | other⟩ <;>
        exact absurd (same.symm.trans other) (by decide)
    · obtain ⟨d, rfl⟩ : ∃ d, row = some d := by
        cases row with
        | none => cases allowed
        | some d => exact ⟨d, rfl⟩
      refine ⟨d.state, outcomeToState outcome, moved transient works d rfl allowed,
        transition_moves_on allowed, ?_⟩
      rcases fits with ⟨named, rfl | rfl⟩ | ⟨named, rfl | rfl⟩
      · exact .inl ⟨named, .inl rfl⟩
      · exact .inl ⟨named, .inr rfl⟩
      · exact .inr ⟨named, rfl⟩
      · exact absurd rfl transient

/-- In a run in which every outcome is applicable where it is applied, every event of
the delivery loop is matched by the move it announces. -/
theorem events_truthful [Platform] (blank : Blank w) (path : service.Reaches w c)
    (applicable : Each Applicable (passages c.shared.history)) :
    Each Truthful (passages c.shared.history) := by
  refine always_where (P := fun s => Each Truthful (passages s.history)) blank path applicable ?_
    fun actor s t change good fitting truthful => ?_
  · rw [blank.history]
    trivial
  · cases change with
    | still _ same => rwa [same]
    | moved moves =>
      rw [passages_moveRows]
      exact each_moves (good.inv.deliveriesOnce.sublist (List.filter_sublist.map _)) truthful
        fun _ _ _ _ _ => trivial
    | enqueued env recipient _ _ _ => exact ⟨truthful, trivial⟩
    | noted passage notes =>
      refine ⟨truthful, ?_⟩
      cases notes with
      | announced kind messageId recipient _ announces => exact announces.truthful fitting.1
      | _ => trivial

section Sample

theorem events_truthful_delivered : ∃ c, sampleService.Reaches blankWorld c ∧
    c.shared.audit.map (·.kind) = ["enqueued", "delivered"] ∧
    .announced "delivered" "0197d8a0-0000-7000-8000-000000000000" "reviewer" ∈
      passages c.shared.history ∧ Each Truthful (passages c.shared.history) := by
  let _ := Platform.sample
  have ran : (sampleService.runs (System.dormant blankWorld)
      (offeredPing .delivered ++ loopMoves 2 1783242003 .notReady)).map (fun c => decide (
        c.shared.audit.map (·.kind) = ["enqueued", "delivered"] ∧
        .announced "delivered" "0197d8a0-0000-7000-8000-000000000000" "reviewer" ∈
          passages c.shared.history ∧
        Each Applicable (passages c.shared.history))) = some true := by
    decide +kernel
  obtain ⟨c, run, facts⟩ := Option.map_eq_some_iff.mp ran
  obtain ⟨chain, announced, applicable⟩ := of_decide_eq_true facts
  have path : sampleService.Reaches blankWorld c := System.leads_of_runs _ run
  exact ⟨c, path, chain, announced, events_truthful blankWorld_blank path applicable⟩

/-- A passage that fails no delivery. -/
def Passage.spares : Passage → Bool
  | .moved _ _ _ _ .failed => false
  | _ => true

/-- The reviewer pulls the message while its adapter is busy; the adapter fails for
good, and the chain says so of a row that stays delivered. -/
theorem failure_announced_of_pulled : ∃ c, sampleService.Reaches blankWorld c ∧
    c.shared.audit.map (·.kind) = ["enqueued", "delivery_failed"] ∧
    c.shared.store.deliveries.map (·.state) = [.delivered] ∧
    (∀ cause m r before, .moved cause m r before .failed ∉ passages c.shared.history) ∧
    ¬ Each Truthful (passages c.shared.history) := by
  have ran : (sampleService.runs (System.dormant blankWorld)
      (offeredPing .permanentFailure ++ pulling 1 "reviewer" 1783242002 ++
        loopMoves 2 1783242003 .notReady)).map (fun c => decide (
          c.shared.audit.map (·.kind) = ["enqueued", "delivery_failed"] ∧
          c.shared.store.deliveries.map (·.state) = [.delivered] ∧
          (passages c.shared.history).all Passage.spares = true ∧
          (passages c.shared.history).head? = some (.announced "delivery_failed"
            "0197d8a0-0000-7000-8000-000000000000" "reviewer") ∧
          lastMove (passages c.shared.history).tail = none)) = some true := by
    decide +kernel
  obtain ⟨c, run, facts⟩ := Option.map_eq_some_iff.mp ran
  obtain ⟨chain, rows, unfailed, announced, unmoved⟩ := of_decide_eq_true facts
  refine ⟨c, System.leads_of_runs _ run, chain, rows, fun cause m r before member => ?_,
    fun truthful => ?_⟩
  · have kept := List.all_eq_true.mp unfailed _ member
    cases kept
  · rw [List.eq_cons_of_mem_head? announced] at truthful
    obtain ⟨before, after, moved, _⟩ := truthful.2
    rw [unmoved] at moved
    cases moved

end Sample
end Crewd.Bus
