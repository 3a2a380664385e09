import Crewd.Statements
import Crewd.Bus.Conduct

/-! What a section leaves alone. Rate windows and ACL stay as they are, a cell comes
to have more pending asks only as far as there is room for them, and only messages of
the named kind are enqueued; without room and kind a section is confined to the rest. -/
namespace Crewd.Bus
open Autocommit Concurrent Table

/-- The pending asks of a requester. -/
def Store.pendingAsks (st : Store) (cell : String) : Nat :=
  (st.asks.filter fun ask => ask.fromCell = cell && ask.state = .pending).length

/-- The messages that were enqueued, with their recipients. -/
def sent (w : World) : List (Envelope × String) := enqueues (passages w.history)

def Mark.isRestart : Mark → Bool
  | .restarted => true
  | _ => false

/-- How often the daemon has started. -/
def lives (history : List Mark) : Nat := history.countP Mark.isRestart

structure Confined (room : String → Nat) (drafts : Envelope → Prop)
    (allowed : Envelope → String → Prop) (w w' : World) : Prop where
  quota : w'.memory.quota = w.memory.quota
  acl : w'.memory.acl = w.memory.acl
  asks : ∀ cell, w'.store.pendingAsks cell ≤ max (w.store.pendingAsks cell) (room cell)
  sends : ∃ later, Bus.sent w' = later ++ Bus.sent w ∧ ∀ entry ∈ later, allowed entry.1 entry.2
  life : lives w'.history = lives w.history
  drafted : ∀ env ∈ w'.store.envelopes, env ∈ w.store.envelopes ∨ drafts env

namespace Confined
variable {room room' : String → Nat} {drafts drafts' : Envelope → Prop}
  {allowed allowed' : Envelope → String → Prop} {w w' : World}

theorem unsent (same : Bus.sent w' = Bus.sent w) : ∃ later, Bus.sent w' = later ++ Bus.sent w ∧
    ∀ entry ∈ later, allowed entry.1 entry.2 := ⟨[], same, fun _ inside => by cases inside⟩

theorem refl (w : World) : Confined room drafts allowed w w :=
  ⟨rfl, rfl, fun _ => Nat.le_max_left _ _, unsent rfl, rfl, fun _ inside => .inl inside⟩

/-- What was enqueued before or is allowed. -/
theorem sent (confined : Confined room drafts allowed w w') (entry : Envelope × String)
    (inside : entry ∈ Bus.sent w') : entry ∈ Bus.sent w ∨ allowed entry.1 entry.2 := by
  obtain ⟨later, split, fits⟩ := confined.sends
  rw [split] at inside
  rcases List.mem_append.mp inside with new | before
  · exact .inr (fits entry new)
  · exact .inl before

/-- Nothing is enqueued where nothing is allowed. -/
theorem sent_eq (confined : Confined room drafts (fun _ _ => False) w w') :
    Bus.sent w' = Bus.sent w := by
  obtain ⟨later, split, fits⟩ := confined.sends
  rw [split, List.eq_nil_iff_forall_not_mem.mpr fits, List.nil_append]

theorem trans (first : Confined room drafts allowed w w') (second : Confined room drafts allowed w' w'') :
    Confined room drafts allowed w w'' := by
  refine ⟨second.quota.trans first.quota, second.acl.trans first.acl, ?_, ?_,
    second.life.trans first.life, ?_⟩
  · intro cell
    have before := first.asks cell
    have after := second.asks cell
    omega
  · obtain ⟨later, split, fits⟩ := first.sends
    obtain ⟨last, split', fits'⟩ := second.sends
    refine ⟨last ++ later, by rw [split', split, List.append_assoc], fun entry inside => ?_⟩
    rcases List.mem_append.mp inside with new | before
    · exact fits' entry new
    · exact fits entry before
  · intro env inside
    rcases second.drafted env inside with before | fits
    · exact first.drafted env before
    · exact .inr fits

theorem mono (wider : ∀ cell, room cell ≤ room' cell)
    (admits : ∀ env, drafts env → drafts' env)
    (allows : ∀ env recipient, allowed env recipient → allowed' env recipient)
    (confined : Confined room drafts allowed w w') : Confined room' drafts' allowed' w w' where
  quota := confined.quota
  acl := confined.acl
  asks cell := by
    have within := confined.asks cell
    have more := wider cell
    omega
  sends := by
    obtain ⟨later, split, fits⟩ := confined.sends
    exact ⟨later, split, fun entry inside => allows _ _ (fits entry inside)⟩
  life := confined.life
  drafted env inside := (confined.drafted env inside).imp_right (admits env)

theorem path (path : Relation.ReflTransGen (Confined room drafts allowed) w w') :
    Confined room drafts allowed w w' := by
  induction path with
  | refl => exact refl w
  | tail _ last ih => exact ih.trans last

theorem ofQuiet (w w' : World) (same : w.Quiet w') : Confined room drafts allowed w w' := by
  refine ⟨by rw [same.memory], by rw [same.memory], ?_, unsent ?_, by rw [same.history], ?_⟩
  · intro cell
    rw [same.store]
    exact Nat.le_max_left _ _
  · rw [Bus.sent, same.history, Bus.sent]
  · rw [same.store]
    exact fun _ inside => .inl inside

/-- Tables other than the asks, and the audit chain. -/
theorem of_asks {f : Store → Store} (asks : ∀ st, (f st).asks = st.asks)
    (envelopes : ∀ st, ∀ env ∈ (f st).envelopes, env ∈ st.envelopes ∨ drafts env) (w : World) :
    Confined room drafts allowed w { w with store := f w.store } := by
  refine ⟨rfl, rfl, ?_, unsent rfl, rfl, envelopes w.store⟩
  intro cell
  simp only [Store.pendingAsks, asks, Nat.le_max_left]

/-- Marks that enqueue nothing. -/
theorem of_history (marks : List Mark) (none : enqueues (passages marks) = [])
    (up : lives marks = 0) (w : World) :
    Confined room drafts allowed w { w with history := marks ++ w.history } := by
  refine ⟨rfl, rfl, fun _ => Nat.le_max_left _ _, unsent ?_, by simpa [lives] using up,
    fun _ inside => .inl inside⟩
  have split : Bus.sent { w with history := marks ++ w.history } =
      enqueues (passages marks) ++ Bus.sent w := by
    simp only [Bus.sent, passages_append, enqueues, List.filterMap_append]
  rw [split, none, List.nil_append]

theorem of_memory {m : Memory} (quota : m.quota = w.memory.quota) (acl : m.acl = w.memory.acl) :
    Confined room drafts allowed w { w with memory := m } :=
  ⟨quota, acl, fun _ => Nat.le_max_left _ _, unsent rfl, rfl, fun _ inside => .inl inside⟩

/-- A step of an ask's waiters, and its mark. -/
theorem of_waking {m : Memory} {mark : Mark} (quota : m.quota = w.memory.quota)
    (acl : m.acl = w.memory.acl) (none : mark.passage = none) (up : mark.isRestart = false) :
    Confined room drafts allowed w { w with memory := m, history := mark :: w.history } := by
  have written : Confined room drafts allowed w { w with memory := m } := of_memory quota acl
  exact written.trans (of_history [mark] (by simp [enqueues, passages, none]) (by simp [lives, up]) _)

/-- An ask that is settled is not pending afterwards. -/
theorem of_settled {f : Ask → Ask} (settles : ∀ ask, (f ask).state ≠ .pending) (askId : String)
    (w : World) : Confined room drafts allowed w { w with store := w.store.updateAsk askId f } := by
  refine ⟨rfl, rfl, ?_, unsent rfl, rfl, fun _ inside => .inl inside⟩
  intro cell
  apply Nat.le_trans _ (Nat.le_max_left _ _)
  simp only [Store.pendingAsks, Store.updateAsk, updateWhere, List.filter_map, List.length_map]
  apply List.Sublist.length_le
  apply List.monotone_filter_right
  intro ask holds
  simp only [Function.comp_apply, Bool.and_eq_true, decide_eq_true_eq] at holds ⊢
  split at holds
  · exact absurd holds.2 (settles ask)
  · exact holds

end Confined

/-- A computation all of whose effects are confined. -/
def Abides (room : String → Nat) (drafts : Envelope → Prop) (allowed : Envelope → String → Prop)
    (m : Act α) : Prop :=
  Meets (Confined room drafts allowed) (fun _ => True) m (fun _ _ => True)

namespace Abides
variable {α β : Type} {room : String → Nat} {drafts : Envelope → Prop}
  {allowed : Envelope → String → Prop}

theorem exec {m : Act α} (keeps : Abides room drafts allowed m) (w : World) :
    Confined room drafts allowed w (m.exec w).2 := .path (keeps w trivial).1

theorem silent {m : Act α} (silent : Silent m) : Abides room drafts allowed m :=
  silent.always Confined.ofQuiet

theorem pure (a : α) : Abides room drafts allowed (Pure.pure a : Act α) := Meets.pure fun _ _ => trivial

theorem throw (e : BusError) : Abides room drafts allowed (MonadExcept.throw e : Act α) := Meets.throw

theorem bind {m : Act α} {f : α → Act β} (first : Abides room drafts allowed m)
    (rest : ∀ a, Abides room drafts allowed (f a)) : Abides room drafts allowed (m >>= f) := Meets.bind first rest

theorem step {f : World → α × World} (moves : ∀ w, Confined room drafts allowed w (f w).2) :
    Abides room drafts allowed (Action.step f : Act α) := Meets.step (fun w _ => moves w) fun _ _ => trivial

theorem forM {xs : List β} {f : β → Act PUnit} (each : ∀ x, Abides room drafts allowed (f x)) :
    Abides room drafts allowed (xs.forM f) := Meets.forM fun x _ => each x

theorem outcome {m : Act α} (keeps : Abides room drafts allowed m) : Abides room drafts allowed m.outcome :=
  fun w _ => ⟨(keeps w trivial).1, fun _ _ => trivial⟩

theorem ignore {m : Act α} (keeps : Abides room drafts allowed m) :
    Abides room drafts allowed (Action.ignore m) := keeps.outcome.bind fun _ => .pure _

theorem mayFail : Abides room drafts allowed mayFail := .silent .mayFail

theorem query (f : Store → α) : Abides room drafts allowed (query f) := .silent (.query f)

theorem execute {f : Store → Store} (asks : ∀ st, (f st).asks = st.asks)
    (envelopes : ∀ st, (f st).envelopes = st.envelopes) : Abides room drafts allowed (execute f) :=
  mayFail.bind fun _ => .step (Confined.of_asks asks fun st _ inside => .inl (envelopes st ▸ inside))

/-- A rollback undoes tables and history; the rest was kept. -/
theorem transaction {m : Act α} (keeps : Abides room drafts allowed m) :
    Abides room drafts allowed (transaction m) := by
  refine mayFail.bind fun _ => ?_
  intro w _
  have inner := (keeps.bind fun a => mayFail.bind fun _ => pure a).exec w
  refine ⟨.single ?_, fun _ _ => trivial⟩
  simp only [atomically, Action.exec_mk]
  change Confined room drafts allowed w ((committing m).exec w).2 at inner
  cases run : (committing m).exec w with
  | mk result w' =>
    rw [run] at inner
    cases result with
    | ok a => exact inner
    | error e =>
      exact ⟨inner.quota, inner.acl, fun _ => Nat.le_max_left _ _, Confined.unsent rfl, rfl,
        fun _ inside => .inl inside⟩

theorem append (draft : AuditEventDraft) : Abides room drafts allowed (append draft) := by
  unfold Crewd.append
  split
  · exact pure _
  · refine (silent .nextFault).bind fun fault => ?_
    cases fault with
    | some text => exact pure _
    | none =>
      exact step fun w => ⟨rfl, rfl, fun _ => Nat.le_max_left _ _, Confined.unsent rfl, rfl,
        fun _ inside => .inl inside⟩

theorem audit (kind : String) (messageId fromCell toCell : Option String) (outcome : String)
    (detail : Option Json) :
    Abides room drafts allowed (audit kind messageId fromCell toCell outcome detail) := by
  refine (append _).bind fun r => ?_
  cases r with
  | ok u => exact pure _
  | error e => exact throw _

theorem note {passage : World → Passage} (none : ∀ w, (passage w).enqueue = none) :
    Abides room drafts allowed (note passage) :=
  step fun w => Confined.of_history [.passed (passage w)]
    (by simp [enqueues, passages, Mark.passage, none]) rfl w

theorem record {mark : Mark} (none : mark.passage = none) (up : mark.isRestart = false) :
    Abides room drafts allowed (record mark) :=
  step fun w => Confined.of_history [mark] (by simp [enqueues, passages, none])
    (by simp [lives, up]) w

theorem moveDeliveries (cause : Cause) (p : Delivery → Bool) (f : Delivery → Delivery) :
    Abides room drafts allowed (moveDeliveries cause p f) := by
  refine mayFail.bind fun _ => step fun w => ?_
  refine (Confined.of_history ((w.store.deliveries.filter p).map fun d =>
    .passed (.moved cause d.envelopeId d.recipient d.state (f d).state)) ?_ ?_ w).trans ?_
  · induction w.store.deliveries.filter p with
    | nil => rfl
    | cons d rest ih => simpa [enqueues, Passage.enqueue] using ih
  · simp [lives, List.countP_map, Function.comp_def, Mark.isRestart]
  · exact Confined.of_asks (f := fun st => { st with
      deliveries := updateWhere p f st.deliveries }) (fun _ => rfl) (fun _ _ inside => .inl inside) _

theorem settleAsk {askId : String} {reply : Option String} {f : Ask → Ask}
    (settles : ∀ ask, (f ask).state ≠ .pending) :
    Abides room drafts allowed (settleAsk askId reply f) := by
  refine mayFail.bind fun _ => step fun w => ?_
  exact (Confined.of_settled settles askId w).trans
    (Confined.of_history [.committed askId reply] rfl rfl _)

theorem writeMemory {f : Memory → α × Memory} (quota : ∀ m, (f m).2.quota = m.quota)
    (acl : ∀ m, (f m).2.acl = m.acl) : Abides room drafts allowed (writeMemory f) :=
  step fun w => Confined.of_memory (quota w.memory) (acl w.memory)

theorem nextSeq (fromCell toCell : String) : Abides room drafts allowed (nextSeq fromCell toCell) := by
  apply transaction
  have counter : ∀ st : Store, (st.withCounter fromCell toCell).asks = st.asks ∧
      (st.withCounter fromCell toCell).envelopes = st.envelopes := by
    intro st
    unfold Store.withCounter
    constructor <;> split <;> rfl
  refine (execute (fun st => (counter st).1) fun st => (counter st).2).bind fun _ => (query _).bind fun row => ?_
  cases row with
  | none => exact throw _
  | some row =>
    have counted : Abides room drafts allowed (Crewd.execute (·.countUp fromCell toCell)) :=
      execute (fun _ => rfl) fun _ => rfl
    exact counted.bind fun _ => pure _

theorem dedupeInsert (fromCell key messageId : String) (askId : Option String) (hash : String) :
    Abides room drafts allowed (dedupeInsert fromCell key messageId askId hash) :=
  (silent .nowRfc3339).bind fun _ => execute (fun _ => rfl) fun _ => rfl

theorem notifyAsker (askId : String) : Abides room drafts allowed (notifyAsker askId) := by
  refine step fun w => ?_
  split
  · exact .of_waking rfl rfl rfl rfl
  · exact .of_history [.notified askId] rfl rfl w

end Abides

section Sections
variable {room : String → Nat} {allowed : Envelope → String → Prop}

theorem firstRead_keeps (task : Nat) (askId : String) : Abides room drafts allowed (firstRead task askId) := by
  refine (Abides.query _).bind fun row => ?_
  cases row with
  | none => exact .throw _
  | some ask => exact (Abides.record rfl rfl).bind fun _ => .pure _

theorem findAsk_keeps (askId : String) : Abides room drafts allowed (findAsk askId) := by
  refine (Abides.query _).bind fun row => ?_
  cases row with
  | none => exact .throw _
  | some ask => exact .pure _

theorem registerWaker_keeps (task : Nat) (askId : String) :
    Abides room drafts allowed (registerWaker task askId) :=
  .step fun _ => .of_waking rfl rfl rfl rfl

theorem pollWaker_keeps (task : Nat) (askId : String) : Abides room drafts allowed (pollWaker task askId) := by
  refine .step fun w => ?_
  split
  · exact .of_waking rfl rfl rfl rfl
  · exact .of_memory rfl rfl

theorem pollWakerAgain_confined (task : Nat) (askId : String) (w : World) :
    Confined room drafts allowed w (pollWakerAgain task askId w).2 := by
  unfold pollWakerAgain
  split
  · exact .of_waking rfl rfl rfl rfl
  · exact .of_waking rfl rfl rfl rfl

theorem readAgain_keeps (task : Nat) (ask : AskRow) : Abides room drafts allowed (readAgain task ask) :=
  (Abides.record rfl rfl).bind fun _ => (Abides.query _).bind fun _ => (Abides.record rfl rfl).bind fun _ => .pure _

theorem noteFetch_keeps (task : Nat) (messageId : String) :
    Abides room drafts allowed (noteFetch task messageId) :=
  .step fun w => Confined.of_history [.fetching task messageId w.failsNext]
    (by simp [enqueues, passages, Mark.passage]) rfl w

theorem inbox_keeps (recipient : String) (limit : Nat) : Abides room drafts allowed (inbox recipient limit) := by
  refine (Abides.query _).bind fun rows => (Abides.note fun _ => rfl).bind fun _ => ?_
  refine (Abides.forM fun env => .moveDeliveries _ _ _).bind fun _ => ?_
  exact (Abides.note fun _ => rfl).bind fun _ => .pure _

theorem expireAsksDue_keeps (now : String) : Abides room drafts allowed (expireAsksDue now) :=
  (Abides.query _).bind fun _ =>
    (Abides.forM fun id => .settleAsk fun _ => by simp).bind fun _ => .pure _

theorem expireDue_keeps (now : String) : Abides room drafts allowed (expireDue now) := by
  refine (Abides.query _).bind fun rows => ?_
  refine (Abides.forM fun row => Abides.mayFail.bind fun _ => ?_).bind fun _ => ?_
  · split
    · exact .moveDeliveries _ _ _
    · exact .pure _
  · exact (Abides.note fun _ => rfl).bind fun _ => .pure _

theorem claimDue_keeps (nowUnix leaseSecs : Int) (max : Nat) :
    Abides room drafts allowed (claimDue nowUnix leaseSecs max) := by
  refine (Abides.moveDeliveries _ _ _).bind fun _ => (Abides.note fun _ => rfl).bind fun _ => ?_
  refine (Abides.query _).bind fun rows => ?_
  exact (Abides.forM fun row => Abides.mayFail.bind fun _ => .moveDeliveries _ _ _).bind fun _ => .pure _

theorem noteOutcome_keeps (messageId recipient : String) (outcome : DeliveryOutcome) :
    Abides room drafts allowed (noteOutcome messageId recipient outcome) := .note fun _ => rfl

theorem applyTransition_keeps (messageId recipient : String) (outcome : DeliveryOutcome) :
    Abides room drafts allowed (applyTransition messageId recipient outcome) := by
  refine (noteOutcome_keeps _ _ _).bind fun _ => Abides.ignore ?_
  refine Abides.bind (.silent (deliveryState_silent _ _)) fun now => ?_
  split
  · exact .moveDeliveries _ _ _
  · exact .throw _

theorem applyFailure_keeps (messageId recipient : String) :
    Abides room drafts allowed (applyFailure messageId recipient) := by
  refine (noteOutcome_keeps _ _ _).bind fun _ => Abides.bind (.silent (.readMemory _)) fun cfg => ?_
  refine Abides.outcome (Abides.bind (.silent .nowUnix) fun now => (Abides.query _).bind fun row => ?_)
  cases row with
  | none => exact .throw _
  | some d =>
    dsimp only
    split
    · exact (Abides.moveDeliveries _ _ _).bind fun _ => .pure _
    · refine Abides.bind (.silent (.readOutside _)) fun jitter => ?_
      exact (Abides.moveDeliveries _ _ _).bind fun _ => .pure _

end Sections
end Crewd.Bus
