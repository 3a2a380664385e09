import Crewd.Bus.Counting
import Crewd.Bus.Deliverable

/-! Applying the outcome of an adapter to a claimed row. The outcome names a state, the
table of transitions decides whether the row may move there, and an error of either is
discarded; so an outcome without an edge from `claimed` leaves the claim to lapse. -/
namespace Crewd.Bus
open Autocommit Concurrent Table

/-- What the outcome prescribes for a row that was claimed. A message that could not be
taken is to be claimable and visible again. -/
def Prescribed (maxAttempts : Nat) (before : Delivery) (outcome : DeliveryOutcome) (st : Store)
    (row : Delivery) : Prop :=
  match outcome with
  | .transientFailure =>
    row.state = if nextAttempts before.attempts ≥ maxAttempts then .failed else .queued
  | .notReady => row.pending = true ∧ Deliverable st row
  | _ => row.state = outcomeToState outcome

section Rows
variable {st : Store} {d : Delivery} {messageId recipient : String} {target : DeliveryState}

/-- The store with an update of one delivery. -/
def Store.touched (st : Store) (messageId recipient : String) (f : Delivery → Delivery) : Store :=
  { st with deliveries := updateWhere (·.is messageId recipient) f st.deliveries }

theorem delivery_touched {f : Delivery → Delivery} (found : st.delivery messageId recipient = some d)
    (keeps : ∀ row, (f row).is messageId recipient = row.is messageId recipient) :
    (st.touched messageId recipient f).delivery messageId recipient = some (f d) := by
  have hit : d.is messageId recipient = true := (delivery_found found).2
  have look : ((·.is messageId recipient) ∘ fun row : Delivery =>
      if row.is messageId recipient = true then f row else row) = (·.is messageId recipient) := by
    funext row
    simp only [Function.comp_apply]
    split
    · exact keeps row
    · rfl
  rw [Store.delivery] at found
  rw [Store.delivery, Store.touched, updateWhere, List.find?_map, look, found, Option.map_some,
    if_pos hit]

theorem unread_store : Unread fun w : World => w.store = st :=
  fun _ _ quiet same => quiet.store.trans same

/-- A transition along an edge of the table is two statements. -/
theorem transition_counts (found : st.delivery messageId recipient = some d)
    (allowed : transitionAllowed d.state target = true) :
    Counts 2 (fun w => w.store = st) (transition messageId recipient target)
      (fun _ w => w.store = st.touched messageId recipient fun d => { d with state := target })
      (fun w => w.store = st) := by
  have read : Counts 1 (fun w : World => w.store = st) (deliveryState messageId recipient)
      (fun state w => w.store = st ∧ state = d.state) (fun w => w.store = st) := by
    refine Counts.bind (l := 0) (Counts.query unread_store fun _ same => same) fun row => ?_
    cases row with
    | none =>
      apply Counts.vacuous
      rintro w ⟨rfl, none⟩
      cases none.trans found
    | some e =>
      apply Counts.pure
      rintro w ⟨rfl, same⟩
      exact ⟨rfl, by rw [Option.some.inj (same.trans found)]⟩
  refine Counts.bind (l := 1) read fun state => ?_
  by_cases here : state = d.state
  · subst here
    rw [if_pos allowed]
    refine Counts.weaken (fun w same => same.1) (fun _ _ done => done)
      (Counts.update unread_store (fun _ => rfl) (fun _ same => same) fun w same => ?_)
    subst same
    rfl
  · exact Counts.vacuous fun w same => here same.2

/-- A refused transition leaves the tables as they are. -/
theorem transition_refused (w : World) (found : w.store.delivery messageId recipient = some d)
    (refused : transitionAllowed d.state target = false) :
    ((transition messageId recipient target).exec w).2.store = w.store := by
  have read := Silent.query (S := Store) (M := Memory) (X := Outside) (K := Mark)
    (·.delivery messageId recipient) w
  simp only [transition, deliveryState, Action.exec_bind]
  cases ran : (query (·.delivery messageId recipient) : Act _).exec w with
  | mk r w' =>
    rw [ran] at read
    cases r with
    | error e => exact read.store
    | ok row =>
      have same := query_reads (by rw [ran])
      rw [found] at same
      subst same
      simp only [Action.exec_pure, refused, Bool.false_eq_true, if_false, Action.exec_throw]
      exact read.store

/-- The counting of a failed attempt is two statements. -/
theorem recordAttemptFailure_counts (found : st.delivery messageId recipient = some d)
    (maxAttempts base cap : Nat) :
    Counts 2 (fun w => w.store = st) (recordAttemptFailure messageId recipient maxAttempts base cap)
      (fun _ w => ∃ f : Delivery → Delivery,
        (∀ row, (f row).is messageId recipient = row.is messageId recipient ∧
          (f row).state = if nextAttempts d.attempts ≥ maxAttempts then .failed else .queued) ∧
        w.store = st.touched messageId recipient f)
      (fun w => w.store = st) := by
  have clock : Counts 0 (fun w : World => w.store = st) nowUnix (fun _ w => w.store = st)
      (fun w => w.store = st) :=
    (Counts.nowMs unread_store).bind (l := 0) fun _ => Counts.pure fun _ same => same
  refine Counts.bind (l := 2) clock fun now => ?_
  refine Counts.bind (l := 1) (Counts.query unread_store fun _ same => same) fun row => ?_
  cases row with
  | none =>
    apply Counts.vacuous
    rintro w ⟨rfl, none⟩
    cases none.trans found
  | some e =>
    by_cases here : e = d
    · subst here
      refine Counts.weaken (P := fun w => w.store = st) (fun w same => same.1) (fun _ _ done => done) ?_
      by_cases spent : nextAttempts e.attempts ≥ maxAttempts
      · simp only [if_pos spent]
        refine Counts.bind (l := 0) (Counts.update unread_store (fun _ => rfl) (fun _ same => same)
          fun w same => ?_) fun _ => Counts.pure fun _ done => done
        subst same
        exact ⟨fun row => { row with state := .failed, attempts := nextAttempts e.attempts },
          fun row => ⟨rfl, rfl⟩, rfl⟩
      · simp only [if_neg spent]
        have drawn : Counts 0 (fun w : World => w.store = st) (readOutside (·.jitter))
            (fun _ w => w.store = st) (fun w => w.store = st) :=
          Counts.step (fun _ => rfl) fun _ same => same
        refine Counts.bind (l := 1) drawn fun jitter => ?_
        refine Counts.bind (l := 0) (Counts.update unread_store (fun _ => rfl) (fun _ same => same)
          fun w same => ?_) fun _ => Counts.pure fun _ done => done
        subst same
        refine ⟨fun row => { row with
          state := .queued, attempts := nextAttempts e.attempts, leaseUntil := none,
          nextRetryAt := now + asI64 (min cap (backoffExp base (nextAttempts e.attempts))) +
            if jitter then 1 else 0 }, fun row => ⟨rfl, rfl⟩, ?_⟩
        cases jitter <;> rfl
    · apply Counts.vacuous
      rintro w ⟨rfl, same⟩
      exact here (Option.some.inj (same.trans found))

end Rows

section Applied
variable {w after : World} {before : Delivery} {messageId recipient : String}
  {outcome : DeliveryOutcome}

/-- The row is in the state that its outcome prescribes. -/
def Applied (maxAttempts : Nat) (before : Delivery) (outcome : DeliveryOutcome) (messageId recipient : String)
    (st : Store) : Prop :=
  ∃ row, st.delivery messageId recipient = some row ∧ Prescribed maxAttempts before outcome st row

/-- A row that is left claimed is not where an outcome wants it, unless that is to retry. -/
theorem not_applied_of_claimed {st : Store} {maxAttempts : Nat} (claimed : before.state = .claimed)
    (found : st.delivery messageId recipient = some before) (waits : outcome ≠ .notReady) :
    ¬ Applied maxAttempts before outcome messageId recipient st := by
  rintro ⟨row, found', prescribed⟩
  cases found.symm.trans found'
  cases outcome with
  | notReady => exact waits rfl
  | transientFailure =>
    simp only [Prescribed, claimed] at prescribed
    split at prescribed <;> cases prescribed
  | delivered => cases claimed.symm.trans prescribed
  | acked => cases claimed.symm.trans prescribed
  | permanentFailure => cases claimed.symm.trans prescribed

theorem applyTransition_exec : ((applyTransition messageId recipient outcome).exec w).2 =
    ((transition messageId recipient (outcomeToState outcome)).exec
      (applyingAt messageId recipient outcome w)).2 := rfl

/-- An outcome that is a plain transition. -/
theorem applyTransition_applied_iff {maxAttempts : Nat} (claimed : before.state = .claimed)
    (found : w.store.delivery messageId recipient = some before)
    (plain : outcome ≠ .transientFailure ∧ outcome ≠ .notReady) :
    Applied maxAttempts before outcome messageId recipient
      ((applyTransition messageId recipient outcome).exec w).2.store ↔
      outcome ≠ .acked ∧ Faultless 2 w := by
  rw [applyTransition_exec]
  generalize noted : applyingAt messageId recipient outcome w = v
  have store : v.store = w.store := by rw [← noted, applyingAt]
  have faults : Faultless 2 v ↔ Faultless 2 w := by rw [← noted]; rfl
  have here : v.store.delivery messageId recipient = some before := by rw [store, found]
  rw [← faults]
  by_cases acked : outcome = .acked
  · subst acked
    have kept : ((transition messageId recipient (outcomeToState .acked)).exec v).2.store = v.store :=
      transition_refused v here (by rw [claimed]; rfl)
    rw [kept, store]
    exact iff_of_false (not_applied_of_claimed claimed found (by decide)) fun both => both.1 rfl
  · have allowed : transitionAllowed before.state (outcomeToState outcome) = true := by
      rw [claimed]
      cases outcome with
      | acked => exact absurd rfl acked
      | transientFailure => exact absurd rfl plain.1
      | notReady => exact absurd rfl plain.2
      | delivered => rfl
      | permanentFailure => rfl
    have counts := transition_counts here allowed
    by_cases clear : Faultless 2 v
    · obtain ⟨_, v', ran, _, moved⟩ := counts.works v rfl clear
      have row := delivery_touched (f := fun d => { d with state := outcomeToState outcome }) here
        fun _ => rfl
      rw [ran]
      refine iff_of_true ⟨_, by rw [moved]; exact row, ?_⟩ ⟨acked, clear⟩
      cases outcome with
      | transientFailure => exact absurd rfl plain.1
      | notReady => exact absurd rfl plain.2
      | _ => rfl
    · obtain ⟨_, v', ran, kept⟩ := counts.fails v rfl clear
      rw [ran, kept, store]
      exact iff_of_false (not_applied_of_claimed claimed found plain.2) fun both => clear both.2

/-- An attempt that failed. -/
theorem applyFailure_applied_iff (claimed : before.state = .claimed)
    (found : w.store.delivery messageId recipient = some before) :
    Applied w.memory.cfg.maxAttempts before .transientFailure messageId recipient
      ((applyFailure messageId recipient).exec w).2.store ↔ Faultless 2 w := by
  have exec : ((applyFailure messageId recipient).exec w).2 = ((recordAttemptFailure messageId recipient
      w.memory.cfg.maxAttempts w.memory.cfg.backoffBaseSecs w.memory.cfg.backoffCapSecs).exec
      (applyingAt messageId recipient .transientFailure w)).2 := rfl
  rw [exec]
  generalize noted : applyingAt messageId recipient .transientFailure w = v
  have store : v.store = w.store := by rw [← noted, applyingAt]
  have faults : Faultless 2 v ↔ Faultless 2 w := by rw [← noted]; rfl
  have here : v.store.delivery messageId recipient = some before := by rw [store, found]
  have counts := recordAttemptFailure_counts here w.memory.cfg.maxAttempts
    w.memory.cfg.backoffBaseSecs w.memory.cfg.backoffCapSecs
  rw [← faults]
  by_cases clear : Faultless 2 v
  · obtain ⟨_, v', ran, _, f, updates, moved⟩ := counts.works v rfl clear
    have row := delivery_touched here fun row => (updates row).1
    rw [ran]
    exact iff_of_true ⟨_, by rw [moved]; exact row, (updates before).2⟩ clear
  · obtain ⟨_, v', ran, kept⟩ := counts.fails v rfl clear
    rw [ran, kept, store]
    exact iff_of_false (not_applied_of_claimed claimed found (by decide)) clear

end Applied

/-- The outcome of an adapter puts the claimed row where it prescribes exactly when it is
no acknowledgement, for which the table has no edge, and the statements that apply it do
not fail. -/
theorem outcome_applied_iff [Platform] {w after : World} (blank : Blank w)
    (reached : service.Reaches w c)
    (found : c.shared.store.delivery messageId recipient = some before)
    (claimed : before.state = .claimed)
    (ran : (applyOutcome messageId recipient outcome).run.step i c.shared = some (code, after)) :
    Applied c.shared.memory.cfg.maxAttempts before outcome messageId recipient after.store ↔
      outcome ≠ .acked ∧ (outcome = .notReady ∨ Faultless 2 (c.shared.install i)) := by
  have here : (c.shared.install i).store.delivery messageId recipient = some before := found
  cases outcome with
  | transientFailure =>
    cases ran
    refine (applyFailure_applied_iff claimed here).trans ?_
    simp
  | notReady =>
    cases ran
    obtain ⟨stored, _⟩ := delivery_found found
    refine iff_of_true ⟨before, found, ?_, ?_⟩ ⟨by decide, .inl rfl⟩
    · simp [Delivery.pending, claimed]
    · exact (good_reachable blank reached).deliverable stored
  | delivered | acked | permanentFailure =>
    cases ran
    refine (applyTransition_applied_iff claimed here (by decide)).trans ?_
    simp

section Sample

/-- The adapter has taken the message, and its row is to be marked. -/
theorem outcome_applied_iff_delivered : ∃ c before code after,
    sampleService.Reaches blankWorld c ∧
    c.shared.store.delivery "0197d8a0-0000-7000-8000-000000000000" "reviewer" = some before ∧
    before.state = .claimed ∧
    (applyOutcome "0197d8a0-0000-7000-8000-000000000000" "reviewer" .delivered).run.step
      (moment 1783242001) c.shared = some (code, after) ∧
    Applied c.shared.memory.cfg.maxAttempts before .delivered "0197d8a0-0000-7000-8000-000000000000"
      "reviewer" after.store := by
  let _ := Platform.sample
  have ran : (sampleService.runs (System.dormant blankWorld) (offeredPing .delivered)).map
      (fun c => decide ((c.shared.store.delivery "0197d8a0-0000-7000-8000-000000000000"
        "reviewer").map (·.state) = some .claimed)) = some true := by
    decide +kernel
  obtain ⟨c, run, facts⟩ := Option.map_eq_some_iff.mp ran
  obtain ⟨before, found, claimed⟩ := Option.map_eq_some_iff.mp (of_decide_eq_true facts)
  have path : sampleService.Reaches blankWorld c := System.leads_of_runs _ run
  have stepped : (applyOutcome "0197d8a0-0000-7000-8000-000000000000" "reviewer" .delivered).run.step
      (moment 1783242001) c.shared = some (_, _) := rfl
  refine ⟨c, before, _, _, path, found, claimed, stepped, ?_⟩
  exact (outcome_applied_iff blankWorld_blank path found claimed stepped).mpr ⟨by decide, .inr rfl⟩

/-- An outcome of this message is applied to a row that is claimed. -/
def Passage.acknowledges (messageId : String) : Passage → Bool
  | .applying m _ .acked (some row) _ failing => m = messageId ∧ row.state = .claimed ∧ failing = false
  | _ => false

def Passage.offers (messageId : String) : Passage → Bool
  | .offered m _ => m = messageId
  | _ => false

/-- The adapter acknowledges the message and the chain says that it was delivered, but its
row stays claimed; when the lease has lapsed it is claimed and offered again. -/
theorem acknowledged_message_offered_twice : ∃ b c, sampleService.Reaches blankWorld b ∧
    (passages b.shared.history).any (·.acknowledges "0197d8a0-0000-7000-8000-000000000000") = true ∧
    b.shared.store.deliveries.map (·.state) = [.claimed] ∧
    b.shared.audit.map (·.kind) = ["enqueued", "delivered"] ∧ sampleService.Leads b c ∧
    c.shared.store.deliveries.map (fun d => (d.state, d.leaseUntil)) = [(.claimed, some 1783242070)] ∧
    ((passages c.shared.history).filter (·.offers "0197d8a0-0000-7000-8000-000000000000")).length =
      2 := by
  have ran : ((sampleService.runs (System.dormant blankWorld)
      (offeredPing .acked ++ loopMoves 2 1783242001 .notReady)).bind fun b =>
      (sampleService.runs b (loopMoves 7 1783242040 .acked)).map fun c => decide (
        (passages b.shared.history).any (·.acknowledges "0197d8a0-0000-7000-8000-000000000000") = true ∧
        b.shared.store.deliveries.map (·.state) = [.claimed] ∧
        b.shared.audit.map (·.kind) = ["enqueued", "delivered"] ∧
        c.shared.store.deliveries.map (fun d => (d.state, d.leaseUntil)) =
          [(.claimed, some 1783242070)] ∧
        ((passages c.shared.history).filter
          (·.offers "0197d8a0-0000-7000-8000-000000000000")).length = 2)) = some true := by
    decide +kernel
  obtain ⟨b, reached, ran⟩ := Option.bind_eq_some_iff.mp ran
  obtain ⟨c, later, facts⟩ := Option.map_eq_some_iff.mp ran
  obtain ⟨acknowledged, claimed, chain, again, twice⟩ := of_decide_eq_true facts
  exact ⟨b, c, System.leads_of_runs _ reached, acknowledged, claimed, chain,
    System.leads_of_runs _ later, again, twice⟩

end Sample
end Crewd.Bus
