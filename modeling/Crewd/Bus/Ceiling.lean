import Crewd.Bus.Runs

/-! The TTL ceiling. Neither a claim nor a pull looks at the expiry of what it hands
out, so the ceiling holds as long as a sweep has come before: a swept delivery is never
pending again. -/
namespace Crewd.Bus
open Autocommit Concurrent History Table

variable {nowMs : Nat} {held : List (String × String)} {passed : List Passage}

/-- The expiry of the envelope has passed at this time. -/
def ExpiredAt (nowMs : Nat) (env : Envelope) : Prop :=
  env.expiresAt ≤ rfc3339FromUnixSecs (nowMs / 1000)

instance : Decidable (ExpiredAt nowMs env) := inferInstanceAs (Decidable (_ ≤ _))

def decideSwept (env : Envelope) (recipient : String) : ∀ passed, Decidable (Swept env recipient passed)
  | [] => .isFalse id
  | passage :: earlier =>
    have : Decidable (Swept env recipient earlier) := decideSwept env recipient earlier
    match passage with
    | .swept now => inferInstanceAs (Decidable ((env.expiresAt ≤ now ∧ _) ∨ _))
    | .enqueued .. | .moved .. | .claiming .. | .offered .. | .applying ..
    | .announced .. | .pulling .. | .shown .. => this

instance : Decidable (Swept env recipient passed) := decideSwept env recipient passed

/-- Every delivery that is still pending past its expiry went through a sweep. -/
def SweptUpTo (nowMs : Nat) (wanted : String → Bool) (passed : List Passage) : Prop :=
  ∀ entry ∈ enqueues passed, wanted entry.2 = true →
    (stateOf entry.1.messageId entry.2 passed).any (!·.settled) = true →
    ExpiredAt nowMs entry.1 → Swept entry.1 entry.2 passed

instance : Decidable (SweptUpTo nowMs wanted passed) :=
  inferInstanceAs (Decidable (∀ entry ∈ enqueues passed, _))

/-- A sweep comes before each claim, and before each pull for its recipient. -/
def SweptFirst (passed : List Passage) : Passage → Prop
  | .claiming nowMs _ => SweptUpTo nowMs (fun _ => true) passed
  | .pulling recipient _ nowMs => SweptUpTo nowMs (· = recipient) passed
  | _ => True

instance : Decidable (SweptFirst passed mark) := by
  unfold SweptFirst
  split <;> infer_instance

/-- What a claim or a pull hands out has not expired by the time of the call. -/
def WithinTtl (passed : List Passage) : Passage → Prop
  | .moved .claimed messageId recipient _ _ => ∃ nowMs held,
    opening .claimed passed = some (.claiming nowMs held) ∧
      ∀ env, (env, recipient) ∈ enqueues passed → env.messageId = messageId → ¬ ExpiredAt nowMs env
  | .pulling _ chosen nowMs => ∀ env ∈ chosen, ¬ ExpiredAt nowMs env
  | _ => True

/-- The batch of updates that follows a claim is a batch of claims. -/
theorem opening_claiming {cause : Cause} {f : Delivery → Delivery} {rows : List Delivery}
    (opened : opening .claimed (moveMarks cause f rows ++ passed) = some (.claiming nowMs held)) :
    opening .claimed passed = some (.claiming nowMs held) ∧ (cause = .claimed ∨ rows = []) := by
  cases rows with
  | nil => exact ⟨opened, .inr rfl⟩
  | cons d rest =>
    by_cases claim : cause = .claimed
    · subst claim
      exact ⟨by rwa [opening_moves movedBy_moveMarks] at opened, .inl rfl⟩
    · simp [moveMarks, opening, claim] at opened

section Invariant
variable [Platform]

theorem Good.enqueued_of_found {w : World} (good : Good w) (member : d ∈ w.store.deliveries)
    (found : w.store.envelope d.envelopeId = some env) :
    (env, d.recipient) ∈ enqueues (passages w.history) := by
  obtain ⟨other, enqueued, id⟩ := good.passing.enqueued_of_row member
  have stored : w.store.envelope other.messageId = some other :=
    envelope_of_mem good.inv.envelopesOnce (good.passing.stored _ enqueued)
  rw [id, found] at stored
  cases stored
  exact enqueued

/-- No pending row has expired where a sweep came first. -/
theorem Good.unexpired {w : World} (good : Good w) (swept : SweptUpTo nowMs wanted (passages w.history))
    (member : d ∈ w.store.deliveries) (pending : d.pending = true) (asked : wanted d.recipient = true)
    (enqueued : (env, d.recipient) ∈ enqueues (passages w.history)) (id : env.messageId = d.envelopeId) :
    ¬ ExpiredAt nowMs env := by
  intro expired
  apply good.passing.unswept d member pending env enqueued id
  apply swept (env, d.recipient) enqueued asked _ expired
  rw [id, good.passing.traced d member]
  simpa using Delivery.pending_iff.mp pending

/-- While a batch is being claimed, no pending row has expired by the time of the claim. -/
def ClaimsLive (w : World) : Prop :=
  ∀ nowMs held, opening .claimed (passages w.history) = some (.claiming nowMs held) →
    ∀ d ∈ w.store.deliveries, d.pending = true → ∀ env,
      (env, d.recipient) ∈ enqueues (passages w.history) → env.messageId = d.envelopeId →
        ¬ ExpiredAt nowMs env

theorem Change.claimsLive (change : Change actor s t) (good : Good s)
    (fitting : Each SweptFirst (passages t.history)) (live : ClaimsLive s) : ClaimsLive t := by
  intro nowMs held opened d member pending env enqueued id
  cases change with
  | still rows same =>
    rw [same] at opened enqueued
    rw [rows] at member
    exact live nowMs held opened d member pending env enqueued id
  | moved moves =>
    rw [passages_moveRows] at opened enqueued
    rw [enqueues_moves isMove_moveMarks] at enqueued
    obtain ⟨before, claim⟩ := opening_claiming opened
    obtain ⟨old, stored, rfl⟩ := mem_updateWhere.mp member
    split at pending
    · rename_i touched
      rw [if_pos touched, (moves.keeps old).2] at enqueued
      rw [if_pos touched, (moves.keeps old).1] at id
      rcases claim with rfl | none
      · cases moves with
        | claimed messageId recipient lease _ _ queued =>
          have waiting : old.pending = true := by
            simp [Delivery.pending, queued old stored touched]
          exact live nowMs held before old stored waiting env enqueued id
      · have absent := List.filter_eq_nil_iff.mp none old stored
        exact absurd touched absent
    · rename_i untouched
      rw [if_neg untouched] at enqueued id
      exact live nowMs held before old stored pending env enqueued id
  | enqueued env recipient _ _ _ => simp [opening] at opened
  | noted passage notes =>
    cases notes with
    | claiming now nowUnix _ =>
      simp only [passages_passed, opening, Option.some.injEq, Passage.claiming.injEq] at opened
      rw [← opened.1]
      have swept : SweptUpTo now (fun _ => true) (passages s.history) := fitting.2
      exact good.unexpired swept member pending rfl enqueued id
    | _ => simp [opening] at opened

end Invariant

/-- In a run in which a sweep comes before each claim and each pull, neither of them
hands out a message past its expiry. -/
theorem expired_never_handed_out [Platform] (blank : Blank w) (path : service.Reaches w c)
    (swept : Each SweptFirst (passages c.shared.history)) :
    Each WithinTtl (passages c.shared.history) := by
  have kept : Each WithinTtl (passages c.shared.history) ∧ ClaimsLive c.shared := by
    refine always_where (P := fun s => Each WithinTtl (passages s.history) ∧ ClaimsLive s)
      blank path swept ?_ fun actor s t change good fitting ⟨within, live⟩ =>
        ⟨?_, change.claimsLive good fitting live⟩
    · simp [ClaimsLive, blank.history, passages, opening, Each]
    · cases change with
      | still _ same => rwa [same]
      | moved moves =>
        rw [passages_moveRows]
        refine each_moves (good.inv.deliveriesOnce.sublist (List.filter_sublist.map _)) within
          fun d member batch only _ => ?_
        obtain ⟨stored, touched⟩ := List.mem_filter.mp member
        cases moves with
        | claimed messageId recipient lease _ opened queued =>
          obtain ⟨nowMs, held, opened⟩ := opened
          refine ⟨nowMs, held, (opening_moves only).trans opened, fun env enqueued id => ?_⟩
          rw [enqueues_moves fun mark inside => Passage.isMove_of_movedBy (only mark inside)] at enqueued
          have waiting : d.pending = true := by simp [Delivery.pending, queued d stored touched]
          exact live nowMs held opened d stored waiting env enqueued id
        | _ => trivial
      | enqueued env recipient _ _ _ => exact ⟨within, trivial⟩
      | noted passage notes =>
        refine ⟨within, ?_⟩
        cases notes with
        | pulling recipient limit nowMs =>
          intro env chosen
          obtain ⟨d, stored, rfl, pending, found⟩ := mem_inboxOrder.mp (List.mem_of_mem_take chosen)
          have first : SweptUpTo nowMs (· = d.recipient) (passages s.history) := fitting.2
          exact good.unexpired first stored pending (decide_eq_true rfl)
            (good.enqueued_of_found stored found) (envelope_found found).2
        | _ => trivial
  exact kept.1

section Sample

theorem expired_never_handed_out_pulled : ∃ c, sampleService.Reaches blankWorld c ∧
    c.shared.store.deliveries.map (·.state) = [.delivered, .expired] ∧
    Each WithinTtl (passages c.shared.history) := by
  let _ := Platform.sample
  have ran : (sampleService.runs (System.dormant blankWorld)
      (startWith sampleStart :: sending 0 "coder" "reviewer" "k1" 1783242000 ++
        pulling 1 "reviewer" 1783242001 ++ sending 2 "coder" "reviewer" "k2" 1783242002 ++
        loopMoves 7 1783328402 .notReady ++ pulling 3 "reviewer" 1783328403)).map (fun c => decide (
          c.shared.store.deliveries.map (·.state) = [.delivered, .expired] ∧
          Each SweptFirst (passages c.shared.history))) = some true := by
    decide +kernel
  obtain ⟨c, run, facts⟩ := Option.map_eq_some_iff.mp ran
  obtain ⟨rows, swept⟩ := of_decide_eq_true facts
  have path : sampleService.Reaches blankWorld c := System.leads_of_runs _ run
  exact ⟨c, path, rows, expired_never_handed_out blankWorld_blank path swept⟩

/-- A day after it was sent the message is pulled; the loop has not ticked since. -/
theorem expired_is_pulled : ∃ c, sampleService.Reaches blankWorld c ∧
    c.shared.store.deliveries.map (·.state) = [.delivered] ∧
    c.shared.store.envelopes.map (·.expiresAt) = ["2026-07-06T09:00:00Z"] ∧
    .pulling "reviewer" c.shared.store.envelopes 1783328400000 ∈ passages c.shared.history ∧
    rfc3339FromUnixSecs 1783328400 = "2026-07-06T09:00:00Z" ∧
    ¬ Each WithinTtl (passages c.shared.history) := by
  let _ := Platform.sample
  have ran : (sampleService.runs (System.dormant blankWorld)
      (startWith sampleStart :: sending 0 "coder" "reviewer" "k1" 1783242000 ++
        pulling 1 "reviewer" 1783328400)).map (fun c => decide (
          c.shared.store.deliveries.map (·.state) = [.delivered] ∧
          c.shared.store.envelopes.map (·.expiresAt) = ["2026-07-06T09:00:00Z"] ∧
          .pulling "reviewer" c.shared.store.envelopes 1783328400000 ∈
            passages c.shared.history ∧
          ∃ env ∈ c.shared.store.envelopes, ExpiredAt 1783328400000 env)) = some true := by
    decide +kernel
  obtain ⟨c, run, facts⟩ := Option.map_eq_some_iff.mp ran
  obtain ⟨rows, expiry, pulled, env, chosen, expired⟩ := of_decide_eq_true facts
  refine ⟨c, System.leads_of_runs _ run, rows, expiry, pulled, by decide +kernel, fun within => ?_⟩
  obtain ⟨before, fit⟩ := within.fits_of_mem pulled
  exact fit env chosen expired

end Sample
end Crewd.Bus
