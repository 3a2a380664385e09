import Crewd.Bus.Sections
import Crewd.Bus.Passing

/-! What the operations on delivery rows do, from any state in which the invariants
hold: every row they touch is in a state they may move, and a batch of updates
touches each of its rows once. -/
namespace Crewd.Bus
open Autocommit Concurrent Table

/-- Reading and drawing identifiers does not change whether it holds. -/
def Unread (P : World → Prop) : Prop := ∀ w w', w.Quiet w' → P w → P w'

section Rows

theorem row_unique {st : Store} (once : (st.deliveries.map fun d => (d.envelopeId, d.recipient)).Nodup)
    (first : d ∈ st.deliveries) (second : e ∈ st.deliveries) (same : d.envelopeId = e.envelopeId)
    (address : d.recipient = e.recipient) : d = e :=
  List.inj_on_of_nodup_map once first second (by rw [same, address])

theorem delivery_found {st : Store} (found : st.delivery messageId recipient = some d) :
    d ∈ st.deliveries ∧ d.is messageId recipient = true :=
  ⟨List.mem_of_find?_eq_some found, List.find?_some found⟩

/-- What holds of the found row holds of every row under its key. -/
theorem found_unique {st : Store}
    (once : (st.deliveries.map fun d => (d.envelopeId, d.recipient)).Nodup)
    (found : st.delivery messageId recipient = some d) (member : e ∈ st.deliveries)
    (hit : e.is messageId recipient = true) : e = d := by
  obtain ⟨stored, is⟩ := delivery_found found
  obtain ⟨id, address⟩ := delivery_is_iff.mp is
  obtain ⟨id', address'⟩ := delivery_is_iff.mp hit
  exact row_unique once member stored (id'.trans id.symm) (address'.trans address.symm)

end Rows

/-- The rows under the keys were updated, and nothing else was. -/
structure MovedTo (w₀ : World) (cause : Cause) (f : Delivery → Delivery) (done : List (String × String))
    (w : World) : Prop where
  store : w.store = { w₀.store with
    deliveries := updateWhere (fun d => (d.envelopeId, d.recipient) ∈ done) f w₀.store.deliveries }
  history : ∃ moves, (∀ mark ∈ moves, mark.movedBy cause = true) ∧
    passages w.history = moves ++ passages w₀.history

namespace MovedTo
variable {w₀ w : World} {cause : Cause} {f : Delivery → Delivery} {done : List (String × String)}

theorem unread : Unread (MovedTo w₀ cause f done) := fun _ _ quiet moved =>
  ⟨quiet.store.trans moved.store, by rw [quiet.history]; exact moved.history⟩

theorem start (w₀ : World) (cause : Cause) (f : Delivery → Delivery) : MovedTo w₀ cause f [] w₀ := by
  refine ⟨?_, [], by simp, rfl⟩
  simp [updateWhere]

theorem mem (moved : MovedTo w₀ cause f done w) : d ∈ w.store.deliveries ↔
    (d ∈ w₀.store.deliveries ∧ (d.envelopeId, d.recipient) ∉ done) ∨
    ∃ old ∈ w₀.store.deliveries, (old.envelopeId, old.recipient) ∈ done ∧ d = f old := by
  rw [moved.store, mem_updateWhere]
  constructor
  · rintro ⟨old, member, rfl⟩
    by_cases hit : (old.envelopeId, old.recipient) ∈ done
    · exact .inr ⟨old, member, hit, by simp [hit]⟩
    · exact .inl ⟨by simpa [hit] using member, by simp [hit]⟩
  · rintro (⟨member, miss⟩ | ⟨old, member, hit, rfl⟩)
    · exact ⟨d, member, by simp [miss]⟩
    · exact ⟨old, member, by simp [hit]⟩

theorem none_store (moved : MovedTo w₀ cause f [] w) : w.store = w₀.store := by
  rw [moved.store]
  simp [updateWhere]

/-- A row that was not updated is still the only one under its key. -/
theorem untouched (moved : MovedTo w₀ cause f done w)
    (keeps : ∀ d, (f d).envelopeId = d.envelopeId ∧ (f d).recipient = d.recipient)
    (once : (w₀.store.deliveries.map fun d => (d.envelopeId, d.recipient)).Nodup)
    (member : d ∈ w₀.store.deliveries) (new : (d.envelopeId, d.recipient) ∉ done) :
    ∀ e ∈ w.store.deliveries, e.is d.envelopeId d.recipient = true → e = d := by
  intro e here hit
  obtain ⟨id, address⟩ := delivery_is_iff.mp hit
  rcases moved.mem.mp here with ⟨stored, _⟩ | ⟨old, stored, updated, rfl⟩
  · exact row_unique once stored member id address
  · rw [(keeps old).1] at id
    rw [(keeps old).2] at address
    exact absurd (by rw [← id, ← address]; exact updated) new

/-- A row that was updated is in the state the update left it in. -/
theorem touched (moved : MovedTo w₀ cause f done w)
    (here : d ∈ w.store.deliveries) (hit : (d.envelopeId, d.recipient) ∈ done) :
    ∃ old ∈ w₀.store.deliveries, d = f old := by
  rcases moved.mem.mp here with ⟨_, miss⟩ | ⟨old, stored, _, rfl⟩
  · exact absurd hit miss
  · exact ⟨old, stored, rfl⟩

theorem opening (moved : MovedTo w₀ cause f done w) :
    opening cause (passages w.history) = opening cause (passages w₀.history) := by
  obtain ⟨moves, only, same⟩ := moved.history
  rw [same, opening_moves only]

/-- One more row, which was not updated before. -/
theorem more (moved : MovedTo w₀ cause f done w)
    (keeps : ∀ d, (f d).envelopeId = d.envelopeId ∧ (f d).recipient = d.recipient)
    (new : (messageId, recipient) ∉ done) :
    MovedTo w₀ cause f (done ++ [(messageId, recipient)])
      (moveRows cause (·.is messageId recipient) f w) where
  store := by
    have rows : updateWhere (·.is messageId recipient) f (updateWhere
        (fun d => decide ((d.envelopeId, d.recipient) ∈ done)) f w₀.store.deliveries) =
        updateWhere (fun d => decide ((d.envelopeId, d.recipient) ∈ done ++
          [(messageId, recipient)])) f w₀.store.deliveries := by
      simp only [updateWhere, List.map_map]
      refine List.map_congr_left fun d _ => ?_
      by_cases hit : (d.envelopeId, d.recipient) ∈ done
      · have apart : ¬ (d.envelopeId = messageId ∧ d.recipient = recipient) := by
          rintro ⟨rfl, rfl⟩
          exact new hit
        simp [hit, Delivery.is, keeps, apart]
      · simp [hit, Delivery.is]
    simp only [moveRows, moved.store, rows]
  history := by
    obtain ⟨moves, only, same⟩ := moved.history
    refine ⟨moveMarks cause f (w.store.deliveries.filter (·.is messageId recipient)) ++ moves, ?_, ?_⟩
    · intro mark member
      rcases List.mem_append.mp member with here | before
      · exact movedBy_moveMarks mark here
      · exact only mark before
    · rw [passages_moveRows, same, List.append_assoc]

end MovedTo

section Joins
variable {st : Store} {keep : Delivery → Envelope → Bool}

theorem mem_joined : (d, env) ∈ st.joined keep ↔
    d ∈ st.deliveries ∧ st.envelope d.envelopeId = some env ∧ keep d env = true := by
  simp only [Store.joined, List.mem_filterMap]
  constructor
  · rintro ⟨row, member, some⟩
    split at some
    · split at some
      · cases some
        exact ⟨member, ‹_›, ‹_›⟩
      · cases some
    · cases some
  · rintro ⟨member, found, kept⟩
    exact ⟨d, member, by simp [found, kept]⟩

theorem envelope_found (found : st.envelope messageId = some env) :
    env ∈ st.envelopes ∧ env.messageId = messageId :=
  ⟨List.mem_of_find?_eq_some found, by simpa using List.find?_some found⟩

/-- With one row for an identifier, a stored envelope is the one that is found. -/
theorem envelope_of_mem (once : (st.envelopes.map (·.messageId)).Nodup) (member : env ∈ st.envelopes) :
    st.envelope env.messageId = some env := by
  cases found : st.envelope env.messageId with
  | none =>
    have absent := List.find?_eq_none.mp found env member
    simp at absent
  | some other =>
    obtain ⟨stored, same⟩ := envelope_found found
    rw [List.inj_on_of_nodup_map once stored member same]

theorem joined_sublist : ((st.joined keep).map (·.1)).Sublist st.deliveries := by
  unfold Store.joined
  induction st.deliveries with
  | nil => exact .slnil
  | cons d rest ih =>
    rw [List.filterMap_cons]
    split
    · exact ih.cons d
    · rename_i pair kept
      split at kept
      · split at kept
        · cases kept
          exact ih.cons_cons d
        · cases kept
      · cases kept

/-- Each joined row has a key of its own. -/
theorem joined_once (once : (st.deliveries.map fun d => (d.envelopeId, d.recipient)).Nodup) :
    ((st.joined keep).map fun row => (row.1.envelopeId, row.1.recipient)).Nodup := by
  have part : ((st.joined keep).map (·.1)).Sublist st.deliveries := joined_sublist
  have distinct := once.sublist (part.map _)
  rwa [List.map_map] at distinct

theorem joined_key (member : row ∈ st.joined keep) : row.2.messageId = row.1.envelopeId :=
  (envelope_found (mem_joined.mp (show (row.1, row.2) ∈ _ from member)).2.1).2

theorem joined_once' (once : (st.deliveries.map fun d => (d.envelopeId, d.recipient)).Nodup) :
    ((st.joined keep).map fun row => (row.2.messageId, row.1.recipient)).Nodup := by
  have keys : (st.joined keep).map (fun row => (row.2.messageId, row.1.recipient)) =
      (st.joined keep).map fun row => (row.1.envelopeId, row.1.recipient) :=
    List.map_congr_left fun row member => by rw [joined_key member]
  rw [keys]
  exact joined_once once

/-- What an inbox pull finds: pending messages of the recipient. -/
theorem mem_inboxOrder : env ∈ st.inboxOrder recipient ↔
    ∃ d ∈ st.deliveries, d.recipient = recipient ∧ d.pending = true ∧
      st.envelope d.envelopeId = some env := by
  simp only [Store.inboxOrder, List.mem_insertionSort, List.mem_map]
  constructor
  · rintro ⟨⟨d, other⟩, member, rfl⟩
    obtain ⟨stored, found, kept⟩ := mem_joined.mp member
    simp only [Bool.and_eq_true, decide_eq_true_eq] at kept
    exact ⟨d, stored, kept.1, kept.2, found⟩
  · rintro ⟨d, stored, address, waiting, found⟩
    exact ⟨(d, env), mem_joined.mpr ⟨stored, found, by simp [address, waiting]⟩, rfl⟩

theorem inboxOrder_once (once : (st.deliveries.map fun d => (d.envelopeId, d.recipient)).Nodup) :
    ((st.inboxOrder recipient).map fun env => (env.messageId, recipient)).Nodup := by
  have perm : ((st.inboxOrder recipient).map fun env => (env.messageId, recipient)).Perm
      ((st.joined fun d _ => d.recipient = recipient && d.pending).map
        fun row => (row.2.messageId, row.1.recipient)) := by
    refine ((List.perm_insertionSort _ _).map _).trans (List.Perm.of_eq ?_)
    rw [List.map_map]
    refine List.map_congr_left fun row member => ?_
    obtain ⟨_, _, kept⟩ := mem_joined.mp (show (row.1, row.2) ∈ _ from member)
    simp only [Bool.and_eq_true, decide_eq_true_eq] at kept
    simp [kept.1]
  exact perm.nodup_iff.mpr (joined_once' once)

end Joins

variable [Platform] {self : Actor} {α : Type}

section Rules
variable {T : World → World → Prop} {P Q : World → Prop} {cause : Cause} {p : Delivery → Bool}
  {f : Delivery → Delivery}

section Quiet
variable (quiet : ∀ w w', World.Quiet w w' → T w w')
include quiet

omit [Platform] in
theorem silent_keeps {m : Act α} (silent : Silent m) (unread : Unread P) :
    Meets T P m (fun _ => P) :=
  fun w holds => ⟨.single (quiet _ _ (silent w)), fun _ _ => unread _ _ (silent w) holds⟩

omit [Platform] in
theorem query_meets {f : Store → α} (unread : Unread P) :
    Meets T P (query f) (fun a w => P w ∧ a = f w.store) := by
  refine (silent_keeps quiet .mayFail unread).bind fun _ => Meets.look (fun _ => rfl) fun w holds => ?_
  exact ⟨holds, rfl⟩

omit [Platform] in
theorem moveDeliveries_meets (unread : Unread P) (moves : ∀ w, P w → T w (moveRows cause p f w))
    (holds : ∀ w, P w → Q (moveRows cause p f w)) :
    Meets T P (moveDeliveries cause p f) (fun _ => Q) :=
  (silent_keeps quiet .mayFail unread).bind fun _ =>
    Meets.step (fun w here => moves w here) fun w here => holds w here

end Quiet

theorem note_meets {passage : World → Passage} (notes : ∀ w, P w → Notes self w (passage w))
    (holds : ∀ w, P w → Q { w with history := .passed (passage w) :: w.history }) :
    Meets (Statement self) P (note passage) (fun _ => Q) :=
  Meets.step (fun w here => .noted _ (notes w here)) fun w here => holds w here

/-- The invariants hold after every step of a section. -/
theorem Meets.good {m : Act α} {Q : α → World → Prop} (met : Meets (Statement self) P m Q) :
    Meets (Statement self) (fun w => P w ∧ Good w) m (fun a w => Q a w ∧ Good w) :=
  met.keep fun _ _ step good => step.good good

end Rules

/-- A batch of updates, each of the picked rows once. -/
theorem moveEach_meets {w₀ : World} {body : α → Act PUnit} {xs : List α}
    (cause : Cause) (f : Delivery → Delivery) (key : α → String × String) (picked : α → Bool)
    {done : List (String × String)} (once : (done ++ (xs.filter picked).map key).Nodup)
    (keeps : ∀ d, (f d).envelopeId = d.envelopeId ∧ (f d).recipient = d.recipient)
    (skips : ∀ x ∈ xs, picked x = false → ∀ P : World → Prop, Unread P →
      Meets (Statement self) P (body x) (fun _ => P))
    (each : ∀ x ∈ xs, picked x = true → ∀ P Q : World → Prop, Unread P →
      (∀ w, P w → Moves self w cause (·.is (key x).1 (key x).2) f) →
      (∀ w, P w → Q (moveRows cause (·.is (key x).1 (key x).2) f w)) →
      Meets (Statement self) P (body x) (fun _ => Q))
    (moves : ∀ x ∈ xs, picked x = true → ∀ done w, MovedTo w₀ cause f done w → key x ∉ done →
      Moves self w cause (·.is (key x).1 (key x).2) f) :
    Meets (Statement self) (MovedTo w₀ cause f done) (xs.forM body)
      (fun _ => MovedTo w₀ cause f (done ++ (xs.filter picked).map key)) := by
  induction xs generalizing done with
  | nil => exact Meets.pure fun w moved => by simpa using moved
  | cons x rest ih =>
    have skips' := fun y (h : y ∈ rest) => skips y (List.mem_cons_of_mem _ h)
    have each' := fun y (h : y ∈ rest) => each y (List.mem_cons_of_mem _ h)
    have moves' := fun y (h : y ∈ rest) => moves y (List.mem_cons_of_mem _ h)
    cases hit : picked x with
    | false =>
      rw [List.filter_cons_of_neg (by simp [hit])] at once ⊢
      exact Meets.bind (skips x List.mem_cons_self hit _ MovedTo.unread) fun _ =>
        ih once skips' each' moves'
    | true =>
      rw [List.filter_cons_of_pos hit] at once ⊢
      have new : key x ∉ done := fun member =>
        (List.nodup_append.mp once).2.2 _ member _ List.mem_cons_self rfl
      have tail : Meets (Statement self) (MovedTo w₀ cause f (done ++ [key x])) (rest.forM body)
          (fun _ => MovedTo w₀ cause f (done ++ [key x] ++ (rest.filter picked).map key)) :=
        ih (by simpa using once) skips' each' moves'
      refine Meets.bind (each x List.mem_cons_self hit _ _ MovedTo.unread
        (fun w moved => moves x List.mem_cons_self hit done w moved new)
        fun w moved => moved.more keeps new) fun _ => ?_
      exact tail.weaken (fun _ h => h) fun _ _ h => by simpa using h

section Outcomes
variable {P : World → Prop} {now : Snap} {messageId recipient : String}

theorem good_unread : Unread Good := fun _ _ quiet good =>
  (Statement.quiet quiet : Statement .main _ _).good good

omit [Platform] in
theorem at_unread (now : Snap) : Unread (·.At now) := fun _ _ quiet here => here.quiet quiet

section Touching
variable {T : World → World → Prop} (quiet : ∀ w w', World.Quiet w w' → T w w')

include quiet in
omit [Platform] in
theorem deliveryState_meets (unread : Unread P) (messageId recipient : String) :
    Meets T P (deliveryState messageId recipient) (fun state w => P w ∧
      ∃ d, w.store.delivery messageId recipient = some d ∧ state = d.state) := by
  refine (query_meets quiet unread).bind fun row => ?_
  cases row with
  | none => exact Meets.throw
  | some d => exact Meets.pure fun w ⟨holds, found⟩ => ⟨holds, d, found.symm, rfl⟩

variable (touches : ∀ w cause f, Moves .main w cause (·.is messageId recipient) f →
  T w (moveRows cause (·.is messageId recipient) f w))
include quiet touches

theorem transition_meets {target : DeliveryState} (settled : target.settled = true) :
    Meets T Good (transition messageId recipient target) (fun _ _ => True) := by
  refine (deliveryState_meets quiet good_unread _ _).bind fun state => ?_
  split
  · rename_i allowed
    refine moveDeliveries_meets quiet ?_ (fun w ⟨good, d, found, same⟩ => ?_) fun _ _ => trivial
    · intro w w' quiet ⟨good, d, found, same⟩
      exact ⟨good_unread w w' quiet good, d, by rw [quiet.store]; exact found, same⟩
    · refine touches w _ _ (.outcome messageId recipient target rfl settled fun e member hit => ?_)
      rw [found_unique good.inv.deliveriesOnce found member hit, ← same]
      exact allowed
  · exact Meets.throw

omit [Platform] quiet touches in
theorem filter_found {st : Store}
    (once : (st.deliveries.map fun d => (d.envelopeId, d.recipient)).Nodup)
    (found : st.delivery messageId recipient = some d) :
    st.deliveries.filter (·.is messageId recipient) = [d] := by
  have distinct : (st.deliveries.filter (·.is messageId recipient)).Nodup :=
    once.of_map.filter _
  have only : ∀ e ∈ st.deliveries.filter (·.is messageId recipient), e = d := fun e h =>
    found_unique once found (List.mem_filter.mp h).1 (List.mem_filter.mp h).2
  have here := List.mem_filter.mpr (delivery_found found)
  cases rows : st.deliveries.filter (·.is messageId recipient) with
  | nil => simp [rows] at here
  | cons e rest =>
    rw [rows] at distinct only
    have first := only e List.mem_cons_self
    cases rest with
    | nil => rw [first]
    | cons e' rest' =>
      have second := only e' (by simp)
      simp [first, second] at distinct

omit [Platform] in
theorem recordAttemptFailure_meets
    (once : (now.store.deliveries.map fun d => (d.envelopeId, d.recipient)).Nodup)
    (found : now.store.delivery messageId recipient = some d)
    (live : d.state = .claimed ∨ d.state = .delivered)
    (unswept : ∀ env, (env, recipient) ∈ enqueues (passages now.history) →
      env.messageId = messageId → ¬ Swept env recipient (passages now.history))
    (maxAttempts base cap : Nat) :
    Meets T (·.At now)
      (recordAttemptFailure messageId recipient maxAttempts base cap)
      (fun exhausted w => exhausted = true → passages w.history =
        .moved .retried messageId recipient d.state .failed :: passages now.history) := by
  refine (silent_keeps quiet .nowUnix (at_unread now)).bind fun nowUnix => ?_
  refine (meets_query quiet _).bind fun row => meets_from fun w ⟨here, same⟩ =>
    ⟨_, here, ?_⟩
  rw [found] at same
  subst same
  simp only
  obtain ⟨_, hit⟩ := delivery_found found
  obtain ⟨id, address⟩ := delivery_is_iff.mp hit
  have alive : ∀ w : World, w.At now → ∀ e ∈ w.store.deliveries, e.is messageId recipient = true →
      e.state = .claimed ∨ e.state = .delivered := by
    intro w here e member is
    rw [here.store] at member
    rw [found_unique once found member is]
    exact live
  split
  · refine Meets.bind (Q := fun _ w => passages w.history =
      .moved .retried messageId recipient d.state .failed :: passages now.history)
      (moveDeliveries_meets quiet (at_unread now) (fun w here => ?_) fun w here => ?_)
      fun _ => Meets.pure fun w moved _ => moved
    · exact touches w _ _ (.exhausted messageId recipient _ rfl (alive w here))
    · rw [passages_moveRows, here.store, here.history, filter_found once found]
      simp [moveMarks, id, address]
  · refine (silent_keeps quiet (.readOutside _) (at_unread now)).bind fun jitter => ?_
    refine Meets.bind (Q := fun _ _ => True) (moveDeliveries_meets quiet (at_unread now)
      (fun w here => ?_) fun _ _ => trivial) fun _ => Meets.pure fun w _ exhausted => by cases exhausted
    exact touches w _ _ (.requeued messageId recipient _ _ rfl (alive w here)
      (by rw [here.history]; exact unswept))

end Touching

end Outcomes
section Exact
variable {messageId recipient : String}

/-- The next statements do not fail. -/
def Faultless (count : Nat) (w : World) : Prop := (w.input.faults.take count).any Option.isSome = false

/-- The same but for the clock readings and faults that are left. -/
def Rest (w w' : World) : Prop :=
  ∃ clock faults, w' = { w with input := { w.input with clock := clock, faults := faults } }

omit [Platform] in
theorem mayFail_faultless {w : World} (clear : Faultless (count + 1) w) :
    ∃ w', (mayFail : Act Unit).exec w = (.ok (), w') ∧ Rest w w' ∧ Faultless count w' := by
  unfold Faultless at clear ⊢
  simp only [mayFail, nextFault, Action.exec_bind, Action.exec_step]
  cases faults : w.input.faults with
  | nil => exact ⟨w, rfl, ⟨w.input.clock, [], by simp [← faults]⟩, by simp [faults]⟩
  | cons fault later =>
    cases fault with
    | some text => simp [faults] at clear
    | none =>
      refine ⟨_, rfl, ⟨w.input.clock, later, rfl⟩, ?_⟩
      simpa [faults] using clear

omit [Platform] in
theorem query_faultless {w : World} (f : Store → α) (clear : Faultless (count + 1) w) :
    ∃ w', (query f : Act α).exec w = (.ok (f w.store), w') ∧ Rest w w' ∧ Faultless count w' := by
  obtain ⟨w', ran, ⟨clock, faults, rfl⟩, left⟩ := mayFail_faultless clear
  exact ⟨_, by simp [query, ran, readStore], ⟨clock, faults, rfl⟩, left⟩

omit [Platform] in
theorem moveDeliveries_faultless {w : World} (cause : Cause) (p : Delivery → Bool)
    (f : Delivery → Delivery) (clear : Faultless (count + 1) w) :
    ∃ w', (moveDeliveries cause p f).exec w = (.ok (), moveRows cause p f w') ∧ Rest w w' := by
  obtain ⟨w', ran, rest, _⟩ := mayFail_faultless clear
  exact ⟨w', by simp [moveDeliveries, ran], rest⟩

omit [Platform] in
theorem transition_faultless {w : World} (clear : Faultless 2 w)
    (found : w.store.delivery messageId recipient = some d) (target : DeliveryState) :
    ∃ w', Rest w w' ∧ ((transition messageId recipient target).exec w).2 =
      if transitionAllowed d.state target = true then
        moveRows .outcome (·.is messageId recipient) (fun d => { d with state := target }) w'
      else w' := by
  obtain ⟨w₁, ran₁, ⟨c₁, f₁, rfl⟩, clear₁⟩ := query_faultless (·.delivery messageId recipient) clear
  simp only [transition, deliveryState, Action.exec_bind, ran₁, found, Action.exec_pure]
  split
  · obtain ⟨w₂, ran₂, c₂, f₂, rfl⟩ := moveDeliveries_faultless .outcome (·.is messageId recipient)
      (fun d => { d with state := target }) clear₁
    exact ⟨_, ⟨c₂, f₂, rfl⟩, by rw [ran₂]⟩
  · exact ⟨_, ⟨c₁, f₁, rfl⟩, rfl⟩

omit [Platform] in
theorem nowUnix_faultless {w : World} (clear : Faultless count w) : ∃ w',
    (nowUnix : Act Nat).exec w = (.ok (w.peekMs / 1000), w') ∧ Rest w w' ∧ Faultless count w' := by
  simp only [nowUnix, nowMs, Action.exec_bind, Action.exec_step, Action.exec_pure, World.peekMs]
  cases w.input.clock with
  | nil => exact ⟨_, rfl, ⟨_, _, rfl⟩, clear⟩
  | cons now later =>
    cases later with
    | nil => exact ⟨_, rfl, ⟨_, _, rfl⟩, clear⟩
    | cons next later => exact ⟨_, rfl, ⟨_, _, rfl⟩, clear⟩

/-- A row after a failed attempt of the delivery has been counted. -/
def Delivery.retried (d : Delivery) (maxAttempts base cap now : Nat) (jitter : Bool)
    (row : Delivery) : Delivery :=
  if nextAttempts d.attempts ≥ maxAttempts then
    { row with state := .failed, attempts := nextAttempts d.attempts }
  else { row with
    state := .queued, attempts := nextAttempts d.attempts, leaseUntil := none,
    nextRetryAt := now + asI64 (min cap (backoffExp base (nextAttempts d.attempts))) +
      if jitter then 1 else 0 }

omit [Platform] in
theorem Delivery.retried_keeps (d : Delivery) (maxAttempts base cap now : Nat) (jitter : Bool)
    (row : Delivery) :
    (d.retried maxAttempts base cap now jitter row).state = d.after maxAttempts .transientFailure ∧
      (d.retried maxAttempts base cap now jitter row).envelopeId = row.envelopeId ∧
      (d.retried maxAttempts base cap now jitter row).recipient = row.recipient := by
  unfold Delivery.retried Delivery.after
  split
  · exact ⟨rfl, rfl, rfl⟩
  · exact ⟨rfl, rfl, rfl⟩

omit [Platform] in
theorem recordAttemptFailure_faultless {w : World} (clear : Faultless 2 w)
    (found : w.store.delivery messageId recipient = some d) (maxAttempts base cap : Nat) :
    ∃ w', Rest w w' ∧ ((recordAttemptFailure messageId recipient maxAttempts base cap).exec w).2 =
      moveRows .retried (·.is messageId recipient)
        (d.retried maxAttempts base cap (w.peekMs / 1000) w.input.outside.jitter) w' := by
  obtain ⟨w₀, ran₀, ⟨c₀, f₀, rfl⟩, clear₀⟩ := nowUnix_faultless clear
  obtain ⟨w₁, ran₁, ⟨c₁, f₁, rfl⟩, clear₁⟩ :=
    query_faultless (·.delivery messageId recipient) clear₀
  obtain ⟨w₂, ran₂, ⟨c₂, f₂, rfl⟩⟩ := moveDeliveries_faultless .retried (·.is messageId recipient)
    (d.retried maxAttempts base cap (w.peekMs / 1000) w.input.outside.jitter) clear₁
  refine ⟨_, ⟨c₂, f₂, rfl⟩, ?_⟩
  simp only [recordAttemptFailure, Action.exec_bind, ran₀, ran₁, found]
  by_cases spent : nextAttempts d.attempts ≥ maxAttempts
  · have failed : d.retried maxAttempts base cap (w.peekMs / 1000) w.input.outside.jitter =
        fun row => { row with state := .failed, attempts := nextAttempts d.attempts } :=
      funext fun row => if_pos spent
    rw [failed] at ran₂ ⊢
    simp only [if_pos spent, Action.exec_bind, ran₂, Action.exec_pure]
  · have requeued : d.retried maxAttempts base cap (w.peekMs / 1000) w.input.outside.jitter =
        fun row => { row with
          state := .queued, attempts := nextAttempts d.attempts, leaseUntil := none,
          nextRetryAt := (w.peekMs / 1000 : Nat) +
            asI64 (min cap (backoffExp base (nextAttempts d.attempts))) +
              if w.input.outside.jitter then 1 else 0 } :=
      funext fun row => if_neg spent
    rw [requeued] at ran₂ ⊢
    simp only [if_neg spent, Action.exec_bind, readOutside, Action.exec_step, ran₂,
      Action.exec_pure]

end Exact
section Sweeping

theorem expireDue_meets (main : self = .main) (now : String) :
    Meets (Statement self) Good (expireDue now) (fun _ _ => True) := by
  let f (d : Delivery) : Delivery := { d with state := .expired }
  refine Meets.given fun w₀ good => ⟨MovedTo w₀ .expired f [], .start w₀ .expired f, ?_⟩
  have once := good.inv.deliveriesOnce
  refine (query_meets Statement.ofQuiet MovedTo.unread).bind fun rows => Meets.given fun w ⟨moved, same⟩ =>
    ⟨MovedTo w₀ .expired f [], moved, ?_⟩
  rw [moved.none_store] at same
  have inRows : ∀ x ∈ rows, x.1 ∈ w₀.store.deliveries ∧ x.2.messageId = x.1.envelopeId := by
    intro x member
    rw [same] at member
    obtain ⟨stored, found, _⟩ := mem_joined.mp (show (x.1, x.2) ∈ _ from member)
    exact ⟨stored, (envelope_found found).2⟩
  let picked (x : Delivery × Envelope) : Bool := transitionAllowed x.1.state .expired
  have pending : ∀ d : Delivery, transitionAllowed d.state .expired = d.pending := by
    intro d
    simp only [Delivery.pending]
    cases d.state <;> decide
  refine Meets.bind (Q := fun _ => MovedTo w₀ .expired f ([] ++ (rows.filter picked).map fun x =>
    (x.1.envelopeId, x.1.recipient))) (moveEach_meets .expired f
      (fun x => (x.1.envelopeId, x.1.recipient)) picked ?_ (fun _ => ⟨rfl, rfl⟩) ?_ ?_ ?_) fun _ => ?_
  · rw [same]
    exact (joined_once once).sublist (List.filter_sublist.map _)
  · intro x _ miss P unread
    refine (silent_keeps Statement.ofQuiet .mayFail unread).bind fun _ => ?_
    simp only [picked] at miss
    rw [if_neg (by simp [miss])]
    exact Meets.pure fun _ holds => holds
  · intro x _ hit P Q unread moves holds
    refine (silent_keeps Statement.ofQuiet .mayFail unread).bind fun _ => ?_
    simp only [picked] at hit
    rw [if_pos hit]
    exact moveDeliveries_meets Statement.ofQuiet unread (fun w here => .moved (moves w here)) holds
  · intro x member hit done w moved new
    refine .expired _ _ main fun d here is => ?_
    rw [moved.untouched (fun _ => ⟨rfl, rfl⟩) once (inRows x member).1 new d here is, ← pending]
    exact hit
  · refine Meets.bind (Q := fun _ _ => True) (note_meets (fun w moved => ?_) fun _ _ => trivial)
      fun _ => Meets.pure fun _ _ => trivial
    refine .swept now main fun d here waiting env stored id due => ?_
    rcases moved.mem.mp here with ⟨old, miss⟩ | ⟨old, _, _, rfl⟩
    · apply miss
      have envelopes : env ∈ w₀.store.envelopes := by
        rw [moved.store] at stored
        exact stored
      have found : w₀.store.envelope d.envelopeId = some env :=
        id ▸ envelope_of_mem good.inv.envelopesOnce envelopes
      refine List.mem_map.mpr ⟨(d, env), List.mem_filter.mpr ⟨?_, (pending d).trans waiting⟩, rfl⟩
      rw [same]
      exact mem_joined.mpr ⟨old, found, by simp [waiting, due]⟩
    · cases waiting

end Sweeping

section Pulling

/-- What a pull makes of a row. -/
def Delivery.pulled (row : Delivery) : Delivery := { row with state := .delivered, leaseUntil := none }

/-- The store after these messages were pulled. -/
def Store.afterPull (st : Store) (recipient : String) (messages : List Envelope) : Store :=
  let keys := messages.map fun env => (env.messageId, recipient)
  { st with
    deliveries := updateWhere (fun d => (d.envelopeId, d.recipient) ∈ keys) Delivery.pulled
      st.deliveries }

/-- The first page of the recipient's inbox. -/
def Store.page (st : Store) (recipient : String) (limit : Nat) : List Envelope :=
  (st.inboxOrder recipient).take limit

/-- The pull answers with the page it found, and moves the rows of the page. -/
theorem inbox_pulls {w : World} (good : Good w) (recipient : String) (limit : Nat) :
    Meets (Statement self) (·.At (snap w)) (inbox recipient limit) (fun a v =>
      a = (w.store.page recipient limit, decide ((w.store.inboxOrder recipient).length > limit)) ∧
      v.store = w.store.afterPull recipient (w.store.page recipient limit)) := by
  refine (meets_query Statement.ofQuiet _).bind fun rows => meets_from fun v ⟨here, same⟩ =>
    ⟨_, here, ?_⟩
  have more : rows.length > limit ↔ (w.store.inboxOrder recipient).length > limit := by
    rw [same, List.length_take]
    simp only [snap, World.snapshot]
    omega
  have chosen : rows.take limit = w.store.page recipient limit := by
    rw [same, List.take_take, Nat.min_eq_left (Nat.le_succ limit)]
    rfl
  simp only [chosen, more]
  have notes : ∀ v : World, v.At (snap w) →
      Notes self v (.pulling recipient (w.store.page recipient limit) v.peekMs) := by
    intro v here
    rw [show w.store = v.store from here.store.symm]
    exact .pulling recipient limit _
  refine Meets.bind (Q := fun _ v => v.store = w.store ∧ ∃ nowMs,
    opening .pulled (passages v.history) = some (.pulling recipient (w.store.page recipient limit) nowMs))
    (note_meets notes fun v here => ⟨here.store, _, rfl⟩) fun _ => ?_
  refine Meets.given fun w₀ ⟨still, nowMs, opened⟩ =>
    ⟨MovedTo w₀ .pulled Delivery.pulled [], .start w₀ .pulled Delivery.pulled, ?_⟩
  have once : (w₀.store.deliveries.map fun d => (d.envelopeId, d.recipient)).Nodup :=
    still ▸ good.inv.deliveriesOnce
  have waiting : ∀ env ∈ w.store.page recipient limit, ∃ d ∈ w₀.store.deliveries,
      d.envelopeId = env.messageId ∧ d.recipient = recipient ∧ d.pending = true := by
    intro env member
    obtain ⟨d, stored, address, waits, found⟩ := mem_inboxOrder.mp (List.mem_of_mem_take member)
    exact ⟨d, still ▸ stored, (envelope_found found).2.symm, address, waits⟩
  refine Meets.bind (moveEach_meets .pulled Delivery.pulled (fun env => (env.messageId, recipient))
    (fun _ => true) ?_ (fun _ => ⟨rfl, rfl⟩) (fun _ _ miss => by cases miss)
    (fun _ _ _ _ _ unread moves holds => moveDeliveries_meets Statement.ofQuiet unread
      (fun w here => .moved (moves w here)) holds) ?_) fun _ => ?_
  · rw [List.filter_true]
    exact (inboxOrder_once good.inv.deliveriesOnce).sublist ((List.take_sublist _ _).map _)
  · intro env member _ done w moved new
    obtain ⟨d, stored, id, address, waits⟩ := waiting env member
    refine .pulled _ _ fun e here is => ?_
    simp only [← id, ← address] at is new
    rw [moved.untouched (fun _ => ⟨rfl, rfl⟩) once stored new e here is]
    exact waits
  · refine Meets.bind (Q := fun _ v => v.store = w.store.afterPull recipient
      (w.store.page recipient limit)) (note_meets (fun v moved => ?_) fun v moved => ?_)
      fun _ => Meets.pure fun v pulled => ⟨rfl, pulled⟩
    · refine .shown recipient _ nowMs (moved.opening.trans opened) fun env member d here is => ?_
      obtain ⟨id, address⟩ := delivery_is_iff.mp is
      obtain ⟨old, _, rfl⟩ := moved.touched here (by
        rw [List.filter_true, id, address]
        exact List.mem_map.mpr ⟨env, member, rfl⟩)
      rfl
    · rw [List.filter_true, List.nil_append] at moved
      have rows := moved.store
      rw [still] at rows
      exact rows

theorem inbox_meets (recipient : String) (limit : Nat) :
    Meets (Statement self) Good (inbox recipient limit) (fun _ _ => True) :=
  Meets.given fun w good => ⟨_, w.at_snapshot, (inbox_pulls good recipient limit).weaken
    (fun _ here => here) fun _ _ _ => trivial⟩

end Pulling
end Crewd.Bus
