import Crewd.Bus.Batch
import Crewd.Bus.Conduct

/-! The delivery loop, section by section: a claim answers a batch in the order of
the enqueues, every message of the batch is offered in its turn, and every event
that reaches the chain fits to the outcome that was applied last. -/
namespace Crewd.Bus
open Autocommit Concurrent Table

section Claiming
variable {st : Store} {keep : Delivery → Envelope → Bool} {entries : List (Envelope × String)}

/-- Joined rows stand in the order in which their messages were enqueued. -/
theorem joined_in_order
    (listed : st.deliveries.map (fun d => (d.envelopeId, d.recipient)) =
      entries.map fun entry => (entry.1.messageId, entry.2))
    (stored : ∀ entry ∈ entries, st.envelope entry.1.messageId = some entry.1) :
    ((st.joined keep).map fun row => (row.2, row.1.recipient)).Sublist entries := by
  unfold Store.joined
  generalize st.deliveries = rows at listed
  induction rows generalizing entries with
  | nil => exact List.nil_sublist _
  | cons d rest ih =>
    obtain ⟨entry, entries, rfl⟩ := List.exists_cons_of_ne_nil (l := entries) (by
      rintro rfl
      cases listed)
    obtain ⟨first, tail⟩ := List.cons.inj listed
    obtain ⟨id, address⟩ := Prod.mk.inj first
    have inside := ih (fun other member => stored other (List.mem_cons_of_mem _ member)) tail
    rw [List.filterMap_cons]
    simp only [id, stored entry List.mem_cons_self]
    by_cases kept : keep d entry.1 = true
    · simp only [kept, if_true, List.map_cons, address]
      exact inside.cons_cons entry
    · simp only [kept]
      exact inside.cons entry

variable [Platform]

theorem envelope_of_enqueued {w : World} (good : Good w)
    (enqueued : entry ∈ enqueues (passages w.history)) :
    w.store.envelope entry.1.messageId = some entry.1 :=
  envelope_of_mem good.inv.envelopesOnce (good.passing.stored entry enqueued)

/-- What is claimed of the due messages is a batch, once all of it has been marked. -/
theorem batch_claimed {w₁ w : World} {now : Int} {max : Nat} {f : Delivery → Delivery}
    {done : List (String × String)} (good : Good w₁)
    (held : heldNow (passages w₁.history) = w₁.store.heldBack now)
    (moved : MovedTo w₁ .claimed f done w) (marks : ∀ d, (f d).state = .claimed)
    (keeps : ∀ d, (f d).envelopeId = d.envelopeId ∧ (f d).recipient = d.recipient)
    (due : ∀ d ∈ w₁.store.deliveries, (d.envelopeId, d.recipient) ∈ done → d.state = .queued)
    (all : ∀ row ∈ (w₁.store.joined fun d _ => d.due now).take max,
      (row.1.envelopeId, row.1.recipient) ∈ done) :
    Batch (((w₁.store.joined fun d _ => d.due now).take max).map
      fun row => (row.2, row.1.recipient)) w := by
  have once := good.inv.deliveriesOnce
  let due' : List (Envelope × String) :=
    (w₁.store.joined fun d _ => d.due now).map fun row => (row.2, row.1.recipient)
  have order : due'.Sublist (enqueues (passages w₁.history)).reverse :=
    joined_in_order good.passing.listed fun entry member =>
      envelope_of_enqueued good (List.mem_reverse.mp member)
  rw [List.map_take]
  obtain ⟨moves, by', same⟩ := moved.history
  have only := fun mark inside => Passage.isMove_of_movedBy (by' mark inside)
  have listed : enqueues (passages w.history) = enqueues (passages w₁.history) := by
    rw [same, enqueues_moves only]
  have distinct := enqueues_once good
  refine ⟨?_, fun ahead entry behind split => ?_⟩
  · rw [← List.map_take, List.map_map]
    exact (joined_once' once).sublist ((List.take_sublist _ _).map _)
  · obtain ⟨rest, whole⟩ : ∃ rest, due' = ahead ++ entry :: rest := by
      have cut := List.take_append_drop max due'
      rw [show due'.take max = ahead ++ entry :: behind from split] at cut
      exact ⟨_, cut.symm.trans (List.append_assoc _ _ _)⟩
    have taken : entry ∈ due'.take max := by
      rw [show due'.take max = ahead ++ entry :: behind from split]
      exact List.mem_append_right _ List.mem_cons_self
    have member : entry ∈ due' := List.mem_of_mem_take taken
    rw [show due'.take max = _ from (List.map_take ..).symm] at taken
    obtain ⟨⟨d, env⟩, picked, same'⟩ := List.mem_map.mp taken
    have hit : (d.envelopeId, d.recipient) ∈ done := all _ picked
    obtain ⟨stored, found, isDue⟩ := mem_joined.mp (List.mem_of_mem_take picked)
    simp only [Delivery.due, Bool.and_eq_true, decide_eq_true_eq] at isDue
    have known : entry ∈ enqueues (passages w₁.history) :=
      List.mem_reverse.mp (order.subset member)
    have key : d.is entry.1.messageId entry.2 = true := by
      rw [← same']
      exact delivery_is_iff.mpr ⟨(envelope_found found).2.symm, rfl⟩
    refine ⟨?_, ?_, ?_⟩
    · rw [same, swept_moves only]
      obtain ⟨id, address⟩ := delivery_is_iff.mp key
      exact address ▸ good.passing.unswept d stored (by simp [Delivery.pending, isDue.1]) entry.1
        (by rw [address]; exact known) id.symm
    · refine ⟨f d, moved.mem.mpr (.inr ⟨d, stored, hit, rfl⟩), ?_, .inl (marks d)⟩
      rw [delivery_is_iff, (keeps d).1, (keeps d).2]
      exact delivery_is_iff.mp key
    · obtain ⟨before, later, around⟩ := List.append_of_mem (List.mem_reverse.mpr known)
      have straight : enqueues (passages w₁.history) = later.reverse ++ entry :: before.reverse := by
        rw [← List.reverse_reverse (enqueues _), around]
        simp
      refine ⟨later.reverse, before.reverse, listed.trans straight,
        fun earlier inside address _ => ?_⟩
      have first : earlier ∈ before := List.mem_reverse.mp inside
      have enqueued : (earlier.1, earlier.2) ∈ enqueues (passages w₁.history) := by
        rw [straight]
        simp [first]
      obtain ⟨e, here, is⟩ := good.passing.row_of_enqueued enqueued
      obtain ⟨id, address'⟩ := delivery_is_iff.mp is
      by_cases waiting : e.pending = true
      · by_cases ready : e.due now = true
        · -- Earlier messages that are due stand before this one in the list of due ones.
          have inDue : earlier ∈ due' := by
            refine List.mem_map.mpr ⟨(e, earlier.1), mem_joined.mpr ⟨here, ?_, ready⟩, by simp [address']⟩
            rw [id]
            exact envelope_of_enqueued good (by rw [straight]; simp [first])
          rw [around] at order
          rw [whole] at order inDue
          have nodup : (before ++ entry :: later).Nodup := by
            rw [← around, List.nodup_reverse]
            exact distinct.of_map
          have apart := List.nodup_append.mp nodup
          rcases List.mem_append.mp inDue with front | rest
          · exact .inl front
          · rcases List.mem_cons.mp rest with clash | after
            · exact absurd clash (apart.2.2 _ first _ List.mem_cons_self)
            · exact absurd rfl (apart.2.2 _ first _ (List.mem_cons_of_mem _
                ((sublist_around nodup order).2.subset after)))
        · refine .inr (.inr (.inl ?_))
          rw [same, heldNow_moves only, held, ← id, ← address']
          exact List.mem_map.mpr ⟨e, List.mem_filter.mpr ⟨here, by simp [waiting, ready]⟩, rfl⟩
      · have settled : e.pending = false := by simpa using waiting
        refine .inr (.inl ⟨e, moved.mem.mpr (.inl ⟨here, fun hit => ?_⟩), is, settled⟩)
        have queued := due e here hit
        simp [Delivery.pending, queued] at settled

theorem claimDue_meets (nowUnix leaseSecs : Int) (max : Nat) :
    Meets (Statement .main) Good (claimDue nowUnix leaseSecs max) (fun claimed w => Batch claimed w) := by
  let f (d : Delivery) : Delivery :=
    { d with state := .claimed, leaseUntil := some (nowUnix + leaseSecs) }
  refine Meets.bind (Q := fun _ => Good) (moveDeliveries_meets Statement.ofQuiet good_unread
    (fun w _ => .moved (.released nowUnix rfl))
    fun w good => (Statement.moved (.released nowUnix rfl)).good good) fun _ => ?_
  refine Meets.bind (Q := fun _ w => Good w ∧ heldNow (passages w.history) = w.store.heldBack nowUnix ∧
      ∃ nowMs held, opening .claimed (passages w.history) = some (.claiming nowMs held))
    (note_meets (fun w _ => .claiming w.peekMs nowUnix rfl) fun w good => ?_) fun _ => ?_
  · exact ⟨(Statement.noted _ (.claiming w.peekMs nowUnix rfl)).good good, rfl, _, _, rfl⟩
  · refine Meets.given fun w₁ ⟨good, held, nowMs, waiting, opened⟩ =>
      ⟨MovedTo w₁ .claimed f [], .start w₁ .claimed f, ?_⟩
    have once := good.inv.deliveriesOnce
    refine (query_meets Statement.ofQuiet MovedTo.unread).bind fun rows =>
      Meets.given fun w ⟨moved, same⟩ => ⟨MovedTo w₁ .claimed f [], moved, ?_⟩
    rw [moved.none_store] at same
    have inRows : ∀ x ∈ rows, x.1 ∈ w₁.store.deliveries ∧ x.2.messageId = x.1.envelopeId ∧
        x.1.state = .queued := by
      intro x member
      rw [same] at member
      obtain ⟨stored, found, due⟩ := mem_joined.mp
        (show (x.1, x.2) ∈ _ from List.mem_of_mem_take member)
      simp only [Delivery.due, Bool.and_eq_true, decide_eq_true_eq] at due
      exact ⟨stored, (envelope_found found).2, due.1⟩
    refine Meets.bind (moveEach_meets .claimed f (fun x => (x.2.messageId, x.1.recipient))
      (fun _ => true) ?_ (fun _ => ⟨rfl, rfl⟩) (fun _ _ miss => by cases miss) ?_ ?_)
      fun _ => Meets.pure fun w moved => ?_
    · rw [List.filter_true, same]
      exact (joined_once' once).sublist ((List.take_sublist _ _).map _)
    · intro x _ _ P Q unread moves holds
      refine (silent_keeps Statement.ofQuiet .mayFail unread).bind fun _ => ?_
      exact moveDeliveries_meets Statement.ofQuiet unread (fun w here => .moved (moves w here)) holds
    · intro x member _ done w moved new
      obtain ⟨stored, id, queued⟩ := inRows x member
      refine .claimed _ _ _ rfl ⟨nowMs, waiting, moved.opening.trans opened⟩ fun d here is => ?_
      simp only [id] at is new
      rw [moved.untouched (fun _ => ⟨rfl, rfl⟩) once stored new d here is]
      exact queued
    · rw [same] at moved ⊢
      refine batch_claimed good held moved (fun _ => rfl) (fun _ => ⟨rfl, rfl⟩) (fun d here hit => ?_)
        fun x member => ?_
      · rw [← same, List.filter_true, List.nil_append] at hit
        obtain ⟨x, member, key⟩ := List.mem_map.mp hit
        obtain ⟨stored, id, queued⟩ := inRows x member
        obtain ⟨messageId, recipient⟩ := Prod.mk.inj key
        rw [row_unique once here stored (messageId.symm.trans id) recipient.symm]
        exact queued
      · rw [List.filter_true, List.nil_append, ← (inRows x (same ▸ member)).2.1]
        exact List.mem_map.mpr ⟨x, member, rfl⟩

end Claiming

variable [Platform]

section Beside

/-- What the threads beside the loop do leaves every row alone or pulls it. -/
theorem Statement.beside (step : Statement self w w') (other : self ≠ .main)
    (running : self ≠ .restart) : Onward Passage.beside (fun _ _ => False) w w' := by
  have alone : ∀ {w w' : World}, w'.store.deliveries = w.store.deliveries →
      passages w'.history = passages w.history →
      Onward Passage.beside (fun _ _ => False) w w' :=
    fun rows same => .still rows [] same (by simp)
  cases step with
  | quiet same => exact .quiet same
  | delivery env recipient _ _ _ _ =>
    refine ⟨⟨[_], rfl, by simp [Passage.beside]⟩, fun d member _ => ?_⟩
    exact ⟨d, List.mem_append_left _ member, delivery_is_iff.mpr ⟨rfl, rfl⟩, .inl rfl⟩
  | moved moves =>
    cases moves with
    | pulled messageId recipient _ =>
      exact .moved (fun _ _ _ => rfl) (fun _ => ⟨rfl, rfl⟩) fun _ _ => .inr rfl
    | released _ main | claimed _ _ _ main | outcome _ _ _ main | exhausted _ _ _ main _
    | requeued _ _ _ _ main _ _ | expired _ _ main => exact absurd main other
  | noted passage notes =>
    refine .still rfl [passage] rfl ?_
    cases notes with
    | pulling _ _ _ | shown _ _ _ _ _ => simp [Passage.beside]
    | swept _ main | claiming _ _ main | offered _ _ main | applying _ _ _ _ _ main
    | announced _ _ _ main => exact absurd main other
  | restarted m main _ => exact absurd main running
  | polled task askId _ _ _ =>
    refine alone ?_ ?_ <;> simp only [pollWaker, Action.exec_step] <;> split <;> rfl
  | polledAgain task askId _ _ _ =>
    refine alone ?_ ?_ <;> simp only [pollWakerAgain] <;> split <;> rfl
  | notified askId =>
    refine alone ?_ ?_ <;> simp only [notifyAsker, Action.exec_step] <;> split <;> rfl
  | _ => exact alone rfl rfl

theorem others_beside (step : others Steps .main w w') :
    Onward Passage.beside (fun _ _ => False) w w' := by
  obtain ⟨actor, other, running, steps⟩ := step
  exact .path (fun _ _ step => step.beside other running) steps

/-- What is known of the batch survives the other threads. -/
theorem batch_stable (rest : List (Envelope × String)) :
    Stable (others Steps .main) (Batch rest) :=
  fun _ _ step batch => batch.onward (fun _ => Passage.inBatch_of_beside) (others_beside step)

theorem announces_stable (kind messageId recipient : String) : Stable (others Steps .main)
    fun w => Announces (passages w.history) kind messageId recipient := by
  intro w w' step announces
  obtain ⟨more, same, only⟩ := (others_beside step).history
  obtain ⟨outcome, row, maxAttempts, failing, applied, facts⟩ := announces
  refine ⟨outcome, row, maxAttempts, failing, ?_, ?_⟩
  · rw [same, lastApplying_beside only, applied]
  · rw [same, lastMove_beside only]
    exact facts

end Beside

section Applying
variable {w w' : World} {messageId recipient : String}

/-- A step of the loop that touches the row of one delivery only. -/
def Touch (messageId recipient : String) (w w' : World) : Prop :=
  Statement .main w w' ∧
    Onward Passage.isMove (fun m r => m = messageId ∧ r = recipient) w w'

theorem Touch.ofQuiet (w w' : World) (same : w.Quiet w') : Touch messageId recipient w w' :=
  ⟨.quiet same, .quiet same⟩

theorem Touch.ofMoves (w : World) (cause : Cause) (f : Delivery → Delivery)
    (moves : Moves .main w cause (·.is messageId recipient) f) :
    Touch messageId recipient w (moveRows cause (·.is messageId recipient) f w) :=
  ⟨.moved moves, .moved (fun _ _ _ => rfl) moves.keeps fun _ hit => .inl (delivery_is_iff.mp hit)⟩

omit [Platform] in
/-- An applied outcome resolves its message: it leaves the row settled, or stays on
record as one that did not. -/
theorem resolved_of_applying {passage : Passage} {moves : List Passage}
    (applies : passage.applies messageId recipient = true)
    (same : passages w'.history = moves ++ passage :: passages w.history)
    (only : ∀ mark ∈ moves, mark.isMove = true)
    (settles : passage.final = true →
      ∃ d ∈ w'.store.deliveries, d.is messageId recipient = true ∧ d.pending = false) :
    Resolved messageId recipient w' := by
  cases final : passage.final with
  | true => exact .inl (settles final)
  | false =>
    refine .inr (.inr ⟨passage, ?_, applies, final⟩)
    rw [same, sinceClaiming_moves only]
    refine List.mem_append_right _ ?_
    cases passage with
    | applying m r outcome row maxAttempts failing => exact List.mem_cons_self
    | _ => cases applies

/-- The world in which the outcome has been noted. -/
def applyingAt (messageId recipient : String) (outcome : DeliveryOutcome) (w : World) : World :=
  { w with history := .passed (.applying messageId recipient outcome
      (w.store.delivery messageId recipient) w.memory.cfg.maxAttempts
      ((w.input.faults.take 2).any Option.isSome)) :: w.history }

theorem applyingAt_step (outcome : DeliveryOutcome) (w : World) :
    Statement .main w (applyingAt messageId recipient outcome w) :=
  .noted _ (.applying messageId recipient outcome _ _ rfl)

/-- What an outcome does to its row is one turn of the batch. -/
theorem Batch.applied {entry : Envelope × String} {rest : List (Envelope × String)}
    {outcome : DeliveryOutcome} (batch : Batch (entry :: rest) w)
    (touches : Relation.ReflTransGen (Touch entry.1.messageId entry.2)
      (applyingAt entry.1.messageId entry.2 outcome w) w')
    (settles : ∀ d, w.store.delivery entry.1.messageId entry.2 = some d → Faultless 2 w →
      (d.after w.memory.cfg.maxAttempts outcome).settled = true →
      ∃ d ∈ w'.store.deliveries, d.is entry.1.messageId entry.2 = true ∧ d.pending = false) :
    Batch rest w' := by
  have onward := Onward.path (fun _ _ step => step.2) touches
  obtain ⟨moves, same, only⟩ := onward.history
  have start : Onward Passage.inBatch (fun m r => m = entry.1.messageId ∧ r = entry.2) w
      (applyingAt entry.1.messageId entry.2 outcome w) :=
    .still rfl [_] rfl (by simp [Passage.inBatch])
  refine batch.advance (fun _ h => h)
    (start.trans (onward.mono (fun _ => Passage.inBatch_of_isMove) fun _ _ h => h)) ?_
  refine resolved_of_applying (w := w) (by simp [Passage.applies]) same only fun final => ?_
  cases found : w.store.delivery entry.1.messageId entry.2 with
  | none => simp [Passage.final, found] at final
  | some d =>
    simp only [Passage.final, found, Bool.and_eq_true, Bool.not_eq_true'] at final
    exact settles d found final.1 final.2

theorem touches_steps (touches : Relation.ReflTransGen (Touch messageId recipient) w w') :
    Steps .main w w' := Relation.ReflTransGen.mono (fun _ _ step => step.1) _ _ touches

/-- What is known once an outcome other than a transient failure has been applied. -/
structure Transitioned (messageId recipient : String) (outcome : DeliveryOutcome)
    (rest : List (Envelope × String)) (w : World) : Prop where
  batch : Batch rest w
  applied : ∃ row maxAttempts failing,
    lastApplying (passages w.history) =
      some (.applying messageId recipient outcome row maxAttempts failing) ∧
    (failing = false → ∀ d, row = some d →
      transitionAllowed d.state (outcomeToState outcome) = true →
      lastMove (passages w.history) =
        some (messageId, recipient, d.state, outcomeToState outcome))

omit [Platform] in
theorem Delivery.settled_iff {d : Delivery} : d.pending = false ↔ d.state.settled = true := by
  have iff := Delivery.pending_iff (d := d)
  cases settled : d.state.settled <;> simp_all

omit [Platform] in
theorem after_transition {outcome : DeliveryOutcome} (d : Delivery) (maxAttempts : Nat)
    (settled : (outcomeToState outcome).settled = true) :
    d.after maxAttempts outcome = if transitionAllowed d.state (outcomeToState outcome) = true
      then outcomeToState outcome else d.state := by
  cases outcome with
  | transientFailure | notReady => cases settled
  | _ => rfl

omit [Platform] in
/-- A transition whose statements do not fail leaves the row as its outcome says. -/
theorem transition_settles {outcome : DeliveryOutcome} {w : World}
    (settled : (outcomeToState outcome).settled = true)
    (clear : Faultless 2 w) (found : w.store.delivery messageId recipient = some d)
    (settles : (d.after maxAttempts outcome).settled = true) :
    ∃ d ∈ ((transition messageId recipient (outcomeToState outcome)).exec w).2.store.deliveries,
      d.is messageId recipient = true ∧ d.pending = false := by
  obtain ⟨w₂, ⟨clock, faults, rfl⟩, same⟩ :=
    transition_faultless clear found (outcomeToState outcome)
  obtain ⟨stored, is⟩ := delivery_found found
  rw [after_transition d maxAttempts settled] at settles
  rw [same]
  split at settles
  · rename_i allowed
    rw [if_pos allowed]
    refine ⟨{ d with state := outcomeToState outcome }, ?_, is, Delivery.settled_iff.mpr settled⟩
    exact mem_updateWhere.mpr ⟨d, stored, by simp [is]⟩
  · rename_i refused
    rw [if_neg refused]
    exact ⟨d, stored, is, Delivery.settled_iff.mpr settles⟩

omit [Platform] in
/-- The move of an allowed transition is the last one on record. -/
theorem transition_moves {w : World} {target : DeliveryState}
    (once : (w.store.deliveries.map fun d => (d.envelopeId, d.recipient)).Nodup)
    (clear : Faultless 2 w) (found : w.store.delivery messageId recipient = some d)
    (allowed : transitionAllowed d.state target = true) :
    lastMove (passages ((transition messageId recipient target).exec w).2.history) =
      some (messageId, recipient, d.state, target) := by
  obtain ⟨w₂, ⟨clock, faults, rfl⟩, same⟩ := transition_faultless clear found target
  obtain ⟨_, is⟩ := delivery_found found
  obtain ⟨id, address⟩ := delivery_is_iff.mp is
  rw [same, if_pos allowed, passages_moveRows, filter_found once found]
  simp [moveMarks, lastMove, id, address]

theorem applyTransition_meets {entry : Envelope × String} {rest : List (Envelope × String)}
    {outcome : DeliveryOutcome} (settled : (outcomeToState outcome).settled = true) :
    Meets (Statement .main) (fun w => Good w ∧ Batch (entry :: rest) w)
      (applyTransition entry.1.messageId entry.2 outcome)
      (fun _ => Transitioned entry.1.messageId entry.2 outcome rest) := by
  intro w ⟨good, batch⟩
  have start : Statement .main w (applyingAt entry.1.messageId entry.2 outcome w) :=
    applyingAt_step outcome w
  have touches : Relation.ReflTransGen (Touch entry.1.messageId entry.2) _ _ :=
    (transition_meets Touch.ofQuiet Touch.ofMoves settled _ (start.good good)).1
  refine ⟨.head start (touches_steps touches), fun _ _ => ⟨batch.applied touches ?_, ?_⟩⟩
  · intro d found clear settles
    exact transition_settles (w := applyingAt entry.1.messageId entry.2 outcome w) settled clear
      found settles
  · obtain ⟨moves, same, only⟩ := (Onward.path (fun _ _ step => step.2) touches).history
    refine ⟨_, _, _, (congrArg lastApplying same).trans (lastApplying_moves only), ?_⟩
    intro free d found allowed
    exact transition_moves (w := applyingAt entry.1.messageId entry.2 outcome w)
      good.inv.deliveriesOnce free found allowed

omit [Platform] in
theorem Transitioned.announces {outcome : DeliveryOutcome} {rest : List (Envelope × String)}
    (done : Transitioned messageId recipient outcome rest w)
    (fits : kind = "delivered" ∧ (outcome = .delivered ∨ outcome = .acked) ∨
      kind = "delivery_failed" ∧ outcome = .permanentFailure) :
    Announces (passages w.history) kind messageId recipient := by
  obtain ⟨row, maxAttempts, failing, applied, moved⟩ := done.applied
  refine ⟨outcome, row, maxAttempts, failing, applied, ?_, fun _ => moved, ?_⟩
  · exact fits.imp_right fun ⟨kind, same⟩ => ⟨kind, .inl same⟩
  · rintro rfl
    rcases fits with ⟨_, same | same⟩ | ⟨_, same⟩ <;> cases same

/-- The row of the first message of the batch. -/
theorem Batch.found {entry : Envelope × String} {rest : List (Envelope × String)} (good : Good w)
    (batch : Batch (entry :: rest) w) :
    ∃ d, w.store.delivery entry.1.messageId entry.2 = some d ∧
      (d.state = .claimed ∨ d.state = .delivered) := by
  obtain ⟨d, stored, is, live⟩ := (batch.turns [] entry rest rfl).live
  cases found : w.store.delivery entry.1.messageId entry.2 with
  | none => exact absurd is (List.find?_eq_none.mp found d stored)
  | some e =>
    rw [found_unique good.inv.deliveriesOnce found stored is] at live
    exact ⟨e, rfl, live⟩

theorem applyFailure_meets {entry : Envelope × String} {rest : List (Envelope × String)} :
    Meets (Statement .main) (fun w => Good w ∧ Batch (entry :: rest) w)
      (applyFailure entry.1.messageId entry.2) (fun result w => Batch rest w ∧
        (result = .ok true →
          Announces (passages w.history) "delivery_failed" entry.1.messageId entry.2)) := by
  intro w ⟨good, batch⟩
  obtain ⟨d, found, live⟩ := batch.found good
  let w₁ := applyingAt entry.1.messageId entry.2 .transientFailure w
  have start : Statement .main w w₁ := applyingAt_step .transientFailure w
  obtain ⟨stored, is⟩ := delivery_found found
  have once : ((snap w₁).store.deliveries.map fun d => (d.envelopeId, d.recipient)).Nodup :=
    good.inv.deliveriesOnce
  obtain ⟨touches, exhausted⟩ := recordAttemptFailure_meets Touch.ofQuiet
    Touch.ofMoves once found live
    (fun env enqueued id swept => batch.unswept good env enqueued id swept) w.memory.cfg.maxAttempts
    w.memory.cfg.backoffBaseSecs w.memory.cfg.backoffCapSecs w₁ w₁.at_snapshot
  refine ⟨.head start (touches_steps touches), fun result ran => ⟨batch.applied touches ?_, ?_⟩⟩
  · intro e same clear settles
    rw [found] at same
    cases same
    obtain ⟨w₂, ⟨clock, faults, rfl⟩, done⟩ := recordAttemptFailure_faultless (w := w₁) clear found
      w.memory.cfg.maxAttempts w.memory.cfg.backoffBaseSecs w.memory.cfg.backoffCapSecs
    obtain ⟨state, id, address⟩ := d.retried_keeps w.memory.cfg.maxAttempts
      w.memory.cfg.backoffBaseSecs w.memory.cfg.backoffCapSecs (World.peekMs w₁ / 1000)
      w₁.input.outside.jitter d
    generalize d.retried _ _ _ _ _ = f at done state id address
    have inside : f d ∈ (moveRows .retried (·.is entry.1.messageId entry.2) f
        { w₁ with input := { w₁.input with clock := clock, faults := faults } }).store.deliveries :=
      mem_updateWhere.mpr ⟨d, stored, by simp [is]⟩
    rw [← done] at inside
    refine ⟨f d, inside, ?_, ?_⟩
    · rw [delivery_is_iff, id, address]
      exact delivery_is_iff.mp is
    · rw [Delivery.settled_iff, state]
      exact settles
  · intro spent
    have moved := exhausted true (by
      have same := Except.ok.inj ran
      rw [spent] at same
      exact same) rfl
    obtain ⟨moves, same, only⟩ := (Onward.path (fun _ _ step => step.2) touches).history
    refine ⟨.transientFailure, _, _, _, (congrArg lastApplying same).trans (lastApplying_moves only),
      .inr ⟨rfl, .inr rfl⟩, fun other => absurd rfl other, fun _ => ⟨d.state, ?_, ?_⟩⟩
    · rcases live with claimed | delivered
      · simp [claimed]
      · simp [delivered]
    · exact congrArg lastMove moved

theorem noteOutcome_meets {entry : Envelope × String} {rest : List (Envelope × String)} :
    Meets (Statement .main) (fun w => Good w ∧ Batch (entry :: rest) w)
      (noteOutcome entry.1.messageId entry.2 .notReady) (fun _ => Batch rest) := by
  intro w ⟨good, batch⟩
  refine ⟨.single (applyingAt_step .notReady w), fun _ _ => batch.applied .refl ?_⟩
  intro d found _ settles
  obtain ⟨stored, is⟩ := delivery_found found
  exact ⟨d, stored, is, Delivery.settled_iff.mpr settles⟩

end Applying

section Delivering
variable {entry : Envelope × String} {rest : List (Envelope × String)}

omit [Platform] in
theorem Batch.still {w w' : World} (batch : Batch rest w)
    (rows : w'.store.deliveries = w.store.deliveries)
    (same : passages w'.history = passages w.history) : Batch rest w' :=
  have step : Onward Passage.inBatch (fun _ _ => False) w w' := .still rows [] same (by simp)
  batch.onward (fun _ h => h) step

omit [Platform] in
theorem batch_unread (rest : List (Envelope × String)) : Unread (Batch rest) :=
  fun _ _ same batch => batch.still (by rw [same.store]) (by rw [same.history])

omit [Platform] in
theorem Batch.noted {passage : Passage} (batch : Batch rest w) (quietly : passage.inBatch = true) :
    Batch rest { w with history := .passed passage :: w.history } :=
  have step : Onward Passage.inBatch (fun _ _ => False) w
      { w with history := .passed passage :: w.history } :=
    .still rfl [passage] rfl (by simp [quietly])
  batch.onward (fun _ h => h) step

/-- A section of the loop that speaks of the invariants and of what it remembers. -/
theorem follows_locked {m : Act α} {P : World → Prop} {Q : α → World → Prop} (unread : Unread P)
    (stable : ∀ a, Stable (others Steps self) (Q a))
    (met : Meets (Statement self) (fun w => Good w ∧ P w) m Q) :
    Follows self P (Crewd.locked m) Q :=
  Runs.locked Statement.ofQuiet stable fun w good holds => met.weaken (fun w' here =>
    have same : w.Quiet w' := ⟨here.store, here.audit, here.memory, here.history, here.minted⟩
    ⟨good_unread w w' same good, unread w w' same holds⟩) fun _ _ h => h

theorem deliverWithTimeout_follows (installed : Bool) :
    Follows .main (Batch (entry :: rest)) (deliverWithTimeout installed entry.1.messageId entry.2)
      (fun _ => Batch (entry :: rest)) := by
  unfold deliverWithTimeout
  split
  · refine follows_locked (batch_unread _) (fun _ => batch_stable _) ?_
    refine Meets.bind (Q := fun _ => Batch (entry :: rest)) (note_meets (fun w ⟨good, batch⟩ => ?_)
      fun w ⟨_, batch⟩ => ?_) fun _ => Meets.look (fun _ => rfl) fun _ batch => batch
    · exact .offered _ _ rfl (batch.inTurn good)
    · exact batch.noted rfl
  · exact Runs.pure fun _ _ batch => batch

/-- Appending to the chain changes neither tables nor history. -/
theorem auditOutcome_meets {P : World → Prop} {kind outcome : String}
    {messageId fromCell toCell : Option String} {detail : Option Json}
    (still : ∀ w w' : World, w'.store = w.store → w'.history = w.history → P w → P w') :
    Meets (Statement self) P (audit kind messageId fromCell toCell outcome detail).outcome
      (fun _ => P) := by
  let T (w w' : World) : Prop :=
    Statement self w w' ∧ w'.store = w.store ∧ w'.history = w.history
  have quiet : ∀ w w', World.Quiet w w' → T w w' := fun w w' same =>
    ⟨.quiet same, same.store, same.history⟩
  refine Meets.mono (S := T) (fun _ _ step => step.1) (Meets.given fun w holds =>
    ⟨(·.At (snap w)), w.at_snapshot, ?_⟩)
  have kept : ∀ w₁ w₂ : World, w₁.At (snap w) → Relation.ReflTransGen T w₁ w₂ → P w₂ := by
    intro w₁ w₂ here path
    have same : w₂.store = w₁.store ∧ w₂.history = w₁.history := by
      induction path with
      | refl => exact ⟨rfl, rfl⟩
      | tail _ last ih => exact ⟨last.2.1.trans ih.1, last.2.2.trans ih.2⟩
    exact still w w₂ (same.1.trans here.store) (same.2.trans here.history) holds
  exact Meets.weaken (fun _ h => h) (fun _ _ h => h.1)
    (Meets.outcome (meets_audit quiet fun w here => ⟨.event _, rfl, rfl⟩) kept)

theorem announce_follows (kind messageId recipient outcome : String) :
    Follows .main
      (fun w => Batch rest w ∧ Announces (passages w.history) kind messageId recipient)
      (announce kind messageId recipient outcome) (fun _ => Batch rest) := by
  have unread : Unread fun w => Batch rest w ∧
      Announces (passages w.history) kind messageId recipient := fun w w' same h =>
    ⟨batch_unread _ w w' same h.1, by rw [same.history]; exact h.2⟩
  refine follows_locked unread (fun _ => batch_stable _) ?_
  refine Meets.weaken (fun w h => h.2) (fun _ _ h => h) ?_
  refine (auditOutcome_meets fun w w' store history h => ?_).bind fun r => ?_
  · exact ⟨h.1.still (by rw [store]) (by rw [history]), by rw [history]; exact h.2⟩
  · cases r with
    | ok u =>
      exact note_meets (fun w h => .announced _ _ _ rfl h.2) fun w h => h.1.noted rfl
    | error e => exact Meets.pure fun _ h => h.1

theorem applyOutcome_follows (outcome : DeliveryOutcome) :
    Follows .main (Batch (entry :: rest)) (applyOutcome entry.1.messageId entry.2 outcome)
      (fun _ => Batch rest) := by
  have announced : ∀ outcome kind text, (outcomeToState outcome).settled = true →
      (kind = "delivered" ∧ (outcome = .delivered ∨ outcome = .acked) ∨
        kind = "delivery_failed" ∧ outcome = .permanentFailure) →
      Follows .main (Batch (entry :: rest)) (do
        locked (applyTransition entry.1.messageId entry.2 outcome)
        announce kind entry.1.messageId entry.2 text) (fun _ => Batch rest) := by
    intro outcome kind text settled fits
    refine Runs.bind (follows_locked (batch_unread _) (fun _ w w' step h =>
      ⟨batch_stable _ w w' step h.1, announces_stable _ _ _ w w' step h.2⟩)
      ((applyTransition_meets settled).weaken (fun _ h => h) fun _ _ done =>
        ⟨done.batch, done.announces fits⟩)) fun _ => announce_follows _ _ _ _
  cases outcome with
  | delivered => exact announced _ _ _ rfl (.inl ⟨rfl, .inl rfl⟩)
  | acked => exact announced _ _ _ rfl (.inl ⟨rfl, .inr rfl⟩)
  | permanentFailure => exact announced _ _ _ rfl (.inr ⟨rfl, rfl⟩)
  | transientFailure =>
    refine Runs.bind (follows_locked (batch_unread _) (fun result w w' step h =>
      ⟨batch_stable _ w w' step h.1, fun ok => announces_stable _ _ _ w w' step (h.2 ok)⟩)
      applyFailure_meets) fun result => ?_
    split
    · exact (announce_follows _ _ _ _).weaken fun _ _ h => ⟨h.1, h.2 rfl⟩
    · exact Runs.pure fun _ _ h => h.1
  | notReady => exact follows_locked (batch_unread _) (fun _ => batch_stable _) noteOutcome_meets

theorem deliver_follows (adapters : List String) :
    Follows .main (Batch (entry :: rest)) (deliver adapters entry) (fun _ => Batch rest) :=
  Runs.bind (deliverWithTimeout_follows _) fun outcome => applyOutcome_follows outcome

/-- Every message of a batch gets its turn. -/
theorem deliverAll_follows (adapters : List String) (batch : List (Envelope × String)) :
    Follows .main (Batch batch) (batch.forM (deliver adapters)) (fun _ _ => True) := by
  induction batch with
  | nil => exact Runs.pure fun _ _ _ => trivial
  | cons entry rest ih => exact Runs.bind (deliver_follows adapters) fun _ => ih

end Delivering

section Ticking

theorem bestEffort_plain {kind outcome : String} {messageId toCell : Option String}
    {detail : Option Json} : Plain self (bestEffort kind messageId toCell outcome detail) :=
  .free (.ignore .audit)

/-- The asks that are still to be expired in this section. -/
private theorem expireAsks_meets {ids : List String} {now : Snap} (once : ids.Nodup)
    (pending : ∀ id ∈ ids, ∃ ask ∈ now.store.asks, ask.askId = id ∧ ask.state = .pending) :
    Meets (Statement self) (·.At now)
      (ids.forM fun id => settleAsk id none fun ask => { ask with state := .expired })
      (fun _ _ => True) := by
  induction ids generalizing now with
  | nil => exact Meets.pure fun _ _ => trivial
  | cons id rest ih =>
    obtain ⟨absent, once⟩ := List.nodup_cons.mp once
    let next : Snap := { now with
      store := now.store.updateAsk id fun ask => { ask with state := .expired }
      history := .committed id none :: now.history }
    have tail : Meets (Statement self) (·.At next)
        (rest.forM fun id => settleAsk id none fun ask => { ask with state := .expired })
        (fun _ _ => True) := by
      refine ih once fun other member => ?_
      obtain ⟨ask, stored, same, state⟩ := pending other (List.mem_cons_of_mem _ member)
      refine ⟨ask, Inv.mem_updateAsk.mpr (.inl ⟨stored, ?_⟩), same, state⟩
      intro clash
      rw [same] at clash
      exact absent (clash ▸ member)
    refine Meets.bind ((meets_mayFail Statement.ofQuiet).bind fun _ => Meets.step
      (Q := fun _ w => World.At w next) (fun w here => ?_) fun w here => ?_) fun _ => tail
    · exact .expired id (by rw [here.store]; exact pending id List.mem_cons_self)
    · refine ⟨?_, here.audit, here.memory, ?_, here.minted⟩
      · show w.store.updateAsk _ _ = _
        rw [here.store]
      · show _ :: w.history = _
        rw [here.history]

theorem expireAsksDue_meets {w : World} (inv : Inv w) (nowRfc3339 : String) :
    Meets (Statement self) (·.At (snap w)) (expireAsksDue nowRfc3339) (fun _ _ => True) := by
  refine (meets_query Statement.ofQuiet _).bind fun ids => meets_from fun _ ⟨here, found⟩ =>
    ⟨_, here, ?_⟩
  subst found
  refine Meets.bind (expireAsks_meets ?_ fun id h => ?_) fun _ => Meets.pure fun _ _ => trivial
  · exact inv.asksOnce.sublist (List.filter_sublist.map _)
  · obtain ⟨ask, member, same⟩ := List.mem_map.mp h
    obtain ⟨stored, due⟩ := List.mem_filter.mp member
    simp only [Bool.and_eq_true, decide_eq_true_eq] at due
    exact ⟨ask, stored, same, due.1⟩

theorem tick_plain : Plain .main tick := by
  refine .bind (.silent (.bind .nowRfc3339 fun _ => .bind .nowUnix fun _ => .pure _)) fun now => ?_
  refine .bind (.locked fun _ good => expireAsksDue_meets good.inv _) fun ids => ?_
  refine .bind (.forM fun id => .bind bestEffort_plain fun _ => .free (notifyAsker_free _)) fun _ => ?_
  refine .bind (.good (expireDue_meets rfl _)) fun expired => .bind (.forM fun _ => bestEffort_plain)
    fun _ => ?_
  refine Runs.bind (Q := Batch) (follows_locked (fun _ _ _ h => h) (fun _ => batch_stable _) ?_)
    fun claimed => ?_
  · refine Meets.bind (Q := fun _ => Good) (Meets.look (fun _ => rfl) fun _ h => h.1) fun cfg => ?_
    exact claimDue_meets _ _ _
  · refine Runs.bind (Q := fun _ => Batch claimed) ?_ fun adapters => deliverAll_follows adapters claimed
    refine follows_locked (batch_unread _) (fun _ => batch_stable _) ?_
    exact Meets.look (fun _ => rfl) fun _ h => h.2

end Ticking
end Crewd.Bus
