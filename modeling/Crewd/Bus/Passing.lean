import Crewd.Bus.Invariant
import Crewd.Bus.Waking

/-! What the recorded passages and the delivery rows have to do with each other:
between any two steps the passages tell the state of every row, in the order the
messages were enqueued. -/
namespace Crewd.Bus
open Autocommit Concurrent Table

structure Passing (w : World) : Prop where
  traced : ∀ d ∈ w.store.deliveries,
    stateOf d.envelopeId d.recipient (passages w.history) = some d.state
  listed : w.store.deliveries.map (fun d => (d.envelopeId, d.recipient)) =
    (enqueues (passages w.history)).reverse.map fun entry => (entry.1.messageId, entry.2)
  stored : ∀ entry ∈ enqueues (passages w.history), entry.1 ∈ w.store.envelopes
  leased : ∀ d ∈ w.store.deliveries, d.state = .claimed → d.leaseUntil.isSome
  counters : ∀ s r, 1 ≤ w.store.nextFor s r
  numbered : ∀ entry ∈ enqueues (passages w.history),
    entry.1.seq < w.store.nextFor entry.1.fromCell entry.2
  unswept : ∀ d ∈ w.store.deliveries, d.pending = true → ∀ env,
    (env, d.recipient) ∈ enqueues (passages w.history) → env.messageId = d.envelopeId →
      ¬ Swept env d.recipient (passages w.history)

theorem delivery_is_iff {d : Delivery} {messageId recipient : String} :
    d.is messageId recipient = true ↔ d.envelopeId = messageId ∧ d.recipient = recipient := by
  simp [Delivery.is]

theorem Delivery.pending_iff {d : Delivery} : d.pending = true ↔ d.state.settled = false := by
  simp only [Delivery.pending, DeliveryState.settled]
  cases d.state <;> decide

theorem Swept.enqueued {passed : List Passage} (swept : Swept env recipient passed) :
    (env, recipient) ∈ enqueues passed := by
  induction passed with
  | nil => cases swept
  | cons passage earlier ih =>
    have later : (env, recipient) ∈ enqueues earlier →
        (env, recipient) ∈ enqueues (passage :: earlier) := by
      intro member
      unfold enqueues
      rw [List.filterMap_cons]
      split
      · exact member
      · exact List.mem_cons_of_mem _ member
    cases passage with
    | swept now =>
      rcases swept with ⟨_, member⟩ | before
      · exact later member
      · exact later (ih before)
    | _ => exact later (ih swept)

/-- Every update keeps a pending row pending or settles it, except that a retry may
bring a settled one back. -/
theorem Moves.pending {w : World} (moves : Moves self w cause p f) (member : d ∈ w.store.deliveries)
    (touched : p d = true) (pending : (f d).pending = true) : d.pending = true ∨
      ∀ env, (env, d.recipient) ∈ enqueues (passages w.history) → env.messageId = d.envelopeId →
        ¬ Swept env d.recipient (passages w.history) := by
  cases moves with
  | released now _ =>
    left
    simp only [Delivery.lapsed, Bool.and_eq_true, decide_eq_true_eq] at touched
    simp [Delivery.pending, touched.1]
  | claimed messageId recipient lease _ _ queued =>
    left
    simp [Delivery.pending, queued d member touched]
  | outcome messageId recipient target _ settled _ =>
    rw [Delivery.pending_iff] at pending
    simp [settled] at pending
  | exhausted messageId recipient attempts _ _ => simp [Delivery.pending] at pending
  | requeued messageId recipient attempts retryAt _ _ unswept =>
    obtain ⟨rfl, rfl⟩ := delivery_is_iff.mp touched
    exact .inr unswept
  | expired messageId recipient _ _ => simp [Delivery.pending] at pending
  | pulled messageId recipient _ => simp [Delivery.pending] at pending

theorem Moves.leased {w : World} (moves : Moves self w cause p f) (claimed : (f d).state = .claimed) :
    (f d).leaseUntil.isSome := by
  cases moves with
  | claimed messageId recipient lease _ _ _ => rfl
  | outcome messageId recipient target _ settled _ =>
    have same : target = .claimed := claimed
    rw [same] at settled
    cases settled
  | _ => cases claimed

namespace Passing

theorem initial (empty : w.store = .empty) (unmarked : w.history = []) : Passing w := by
  constructor <;> simp [empty, unmarked, Store.empty, passages, enqueues, Store.nextFor]

/-- A step that leaves deliveries and passages alone. -/
theorem frame (passing : Passing w) (rows : w'.store.deliveries = w.store.deliveries)
    (same : passages w'.history = passages w.history)
    (envelopes : ∀ e ∈ w.store.envelopes, e ∈ w'.store.envelopes)
    (counters : ∀ s r, w.store.nextFor s r ≤ w'.store.nextFor s r) : Passing w' where
  traced := by rw [rows, same]; exact passing.traced
  listed := by rw [rows, same]; exact passing.listed
  stored := by rw [same]; exact fun entry h => envelopes _ (passing.stored entry h)
  leased := by rw [rows]; exact passing.leased
  counters s r := Nat.le_trans (passing.counters s r) (counters s r)
  numbered := by
    rw [same]
    exact fun entry h => Nat.lt_of_lt_of_le (passing.numbered entry h) (counters _ _)
  unswept := by rw [rows, same]; exact passing.unswept

/-- A step that leaves the tables alone. -/
theorem still (passing : Passing w) (store : w'.store = w.store)
    (same : passages w'.history = passages w.history) : Passing w' :=
  passing.frame (by rw [store]) same (by rw [store]; exact fun _ h => h)
    (by rw [store]; exact fun _ _ => Nat.le_refl _)

theorem ofMoved (passing : Passing w) (moves : Moves self w cause p f)
    (once : (w.store.deliveries.map fun d => (d.envelopeId, d.recipient)).Nodup) :
    Passing (moveRows cause p f w) where
  traced := by
    intro d member
    rw [passages_moveRows]
    obtain ⟨old, stored, rfl⟩ := mem_updateWhere.mp member
    by_cases touched : p old = true
    · rw [if_pos touched, (moves.keeps old).1, (moves.keeps old).2]
      exact stateOf_moved (once.sublist (List.filter_sublist.map _))
        (List.mem_filter.mpr ⟨stored, touched⟩)
    · rw [if_neg touched, stateOf_unmoved, passing.traced old stored]
      rintro other inside same
      obtain ⟨known, hit⟩ := List.mem_filter.mp inside
      have : other = old := List.inj_on_of_nodup_map once known stored (by simp [same])
      exact touched (this ▸ hit)
  listed := by
    rw [passages_moveRows, enqueues_moves isMove_moveMarks, ← passing.listed]
    exact map_updateWhere fun d _ _ => by rw [(moves.keeps d).1, (moves.keeps d).2]
  stored := by
    rw [passages_moveRows, enqueues_moves isMove_moveMarks]
    exact passing.stored
  leased := by
    intro d member claimed
    obtain ⟨old, stored, rfl⟩ := mem_updateWhere.mp member
    by_cases touched : p old = true
    · rw [if_pos touched] at claimed ⊢
      exact moves.leased claimed
    · rw [if_neg touched] at claimed ⊢
      exact passing.leased old stored claimed
  counters := passing.counters
  numbered := by
    rw [passages_moveRows, enqueues_moves isMove_moveMarks]
    exact passing.numbered
  unswept := by
    intro d member pending env
    rw [passages_moveRows, enqueues_moves isMove_moveMarks, swept_moves isMove_moveMarks]
    obtain ⟨old, stored, rfl⟩ := mem_updateWhere.mp member
    by_cases touched : p old = true
    · rw [if_pos touched] at pending ⊢
      rw [(moves.keeps old).1, (moves.keeps old).2]
      rcases moves.pending stored touched pending with before | fresh
      · exact passing.unswept old stored before env
      · exact fresh env
    · rw [if_neg touched] at pending ⊢
      exact passing.unswept old stored pending env

/-- Every enqueued message has its row. -/
theorem row_of_enqueued (passing : Passing w)
    (enqueued : (env, recipient) ∈ enqueues (passages w.history)) :
    ∃ d ∈ w.store.deliveries, d.is env.messageId recipient = true := by
  have listed : (env.messageId, recipient) ∈
      w.store.deliveries.map fun d => (d.envelopeId, d.recipient) := by
    rw [passing.listed]
    exact List.mem_map.mpr ⟨_, List.mem_reverse.mpr enqueued, rfl⟩
  obtain ⟨d, member, same⟩ := List.mem_map.mp listed
  exact ⟨d, member, delivery_is_iff.mpr (Prod.mk.inj same)⟩

/-- Every row was enqueued. -/
theorem enqueued_of_row (passing : Passing w) (member : d ∈ w.store.deliveries) :
    ∃ env, (env, d.recipient) ∈ enqueues (passages w.history) ∧ env.messageId = d.envelopeId := by
  have listed : (d.envelopeId, d.recipient) ∈
      (enqueues (passages w.history)).reverse.map fun entry => (entry.1.messageId, entry.2) := by
    rw [← passing.listed]
    exact List.mem_map_of_mem member
  obtain ⟨⟨env, r⟩, enqueued, same⟩ := List.mem_map.mp listed
  obtain ⟨id, rfl⟩ := Prod.mk.inj same
  exact ⟨env, List.mem_reverse.mp enqueued, id⟩

theorem ofDelivery (passing : Passing w) {env : Envelope} (known : env ∈ w.store.envelopes)
    (new : ∀ d ∈ w.store.deliveries, d.is env.messageId recipient = false)
    (admissible : Admissible w env recipient) :
    Passing { w with
      store := { w.store with
        deliveries := w.store.deliveries ++ [⟨env.messageId, recipient, .queued, 0, none, 0⟩] }
      history := .passed (.enqueued env recipient) :: w.history } := by
  have fresh : ∀ other, (other, recipient) ∈ enqueues (passages w.history) →
      other.messageId ≠ env.messageId := by
    intro other enqueued same
    obtain ⟨d, member, hit⟩ := passing.row_of_enqueued enqueued
    rw [same, new d member] at hit
    cases hit
  have entries : ∀ entry, entry ∈ enqueues (passages (.passed (.enqueued env recipient) :: w.history)) ↔
      entry = (env, recipient) ∨ entry ∈ enqueues (passages w.history) :=
    fun entry => List.mem_cons
  constructor
  · intro d member
    rcases List.mem_append.mp member with old | added
    · have apart : ¬ (env.messageId = d.envelopeId ∧ recipient = d.recipient) := by
        rintro ⟨id, rfl⟩
        have absent := new d old
        rw [delivery_is_iff.mpr ⟨id.symm, rfl⟩] at absent
        cases absent
      simpa [stateOf, apart] using passing.traced d old
    · cases List.mem_singleton.mp added
      simp [stateOf]
  · have listed := passing.listed
    simpa [enqueues, Passage.enqueue] using listed
  · intro entry member
    rcases (entries entry).mp member with rfl | old
    · exact known
    · exact passing.stored entry old
  · intro d member claimed
    rcases List.mem_append.mp member with old | added
    · exact passing.leased d old claimed
    · cases List.mem_singleton.mp added
      cases claimed
  · exact passing.counters
  · intro entry member
    rcases (entries entry).mp member with rfl | old
    · by_cases fanned : env.kind = .broadcast
      · show env.seq < _
        rw [admissible.fanned fanned]
        exact passing.counters _ _
      · exact (admissible.numbered fanned).1
    · exact passing.numbered entry old
  · intro d member pending other enqueued id swept
    rcases List.mem_append.mp member with old | added
    · rcases (entries _).mp enqueued with same | before
      · obtain ⟨rfl, rfl⟩ := Prod.mk.inj same
        have absent := new d old
        rw [delivery_is_iff.mpr ⟨id.symm, rfl⟩] at absent
        cases absent
      · exact passing.unswept d old pending other before id swept
    · cases List.mem_singleton.mp added
      exact fresh other (Swept.enqueued swept) id

/-- A passage that enqueues nothing and moves no row. -/
theorem aside (passing : Passing w) (passage : Passage) (store : w'.store = w.store)
    (more : passages w'.history = passage :: passages w.history)
    (states : ∀ m r, stateOf m r (passage :: passages w.history) = stateOf m r (passages w.history))
    (entries : enqueues (passage :: passages w.history) = enqueues (passages w.history))
    (unswept : ∀ d ∈ w.store.deliveries, d.pending = true → ∀ env,
      (env, d.recipient) ∈ enqueues (passages w.history) → env.messageId = d.envelopeId →
        Swept env d.recipient (passage :: passages w.history) →
          Swept env d.recipient (passages w.history)) : Passing w' := by
  constructor
  · rw [store, more]
    exact fun d member => (states _ _).trans (passing.traced d member)
  · rw [store, more, entries]
    exact passing.listed
  · rw [store, more, entries]
    exact passing.stored
  · rw [store]
    exact passing.leased
  · rw [store]
    exact passing.counters
  · rw [store, more, entries]
    exact passing.numbered
  · rw [store, more, entries]
    intro d member pending env enqueued id swept
    exact passing.unswept d member pending env enqueued id
      (unswept d member pending env enqueued id swept)

theorem ofNoted (passing : Passing w) {passage : Passage} (notes : Notes self w passage) :
    Passing { w with history := .passed passage :: w.history } := by
  refine passing.aside passage rfl rfl ?_ ?_ ?_
  · cases notes <;> exact fun _ _ => rfl
  · cases notes <;> rfl
  · intro d member pending env enqueued id swept
    cases notes with
    | swept now _ due =>
      rcases swept with ⟨past, _⟩ | before
      · exact absurd past (due d member pending env (passing.stored _ enqueued) id)
      · exact before
    | _ => exact swept

end Passing

variable [Platform]

/-- No step breaks the agreement of rows and passages. -/
theorem Statement.passing (step : Statement self w w') (inv : Inv w) (passing : Passing w) :
    Passing w' := by
  cases step with
  | quiet same => exact passing.still same.store (by rw [same.history])
  | counters c more => exact passing.frame rfl rfl (fun _ h => h) more
  | envelope env _ _ =>
    exact passing.frame rfl rfl (fun _ h => List.mem_append_left _ h) fun _ _ => Nat.le_refl _
  | event draft => exact passing.still rfl rfl
  | delivery env recipient _ known new admissible => exact passing.ofDelivery known new admissible
  | ask _ _ _ _ _ _ | binding _ _ _ | answered _ _ _ | expired _ _ =>
    exact passing.frame rfl rfl (fun _ h => h) fun _ _ => Nat.le_refl _
  | moved moves => exact passing.ofMoved moves inv.deliveriesOnce
  | noted passage notes => exact passing.ofNoted notes
  | memory _ _ _ | firstRead _ _ _ _ | registered _ _ _ _ | resumed _ _ _ | reread _ _ _ _
  | fetching _ _ _ | restarted _ _ _ =>
    exact passing.still rfl rfl
  | polled task askId _ _ _ =>
    refine passing.still ?_ ?_ <;> simp only [pollWaker, Action.exec_step] <;> split <;> rfl
  | polledAgain task askId _ _ _ =>
    refine passing.still ?_ ?_ <;> simp only [pollWakerAgain] <;> split <;> rfl
  | notified askId =>
    refine passing.still ?_ ?_ <;> simp only [notifyAsker, Action.exec_step] <;> split <;> rfl

/-- What holds between any two steps. -/
structure Good (w : World) : Prop where
  inv : Inv w
  waking : Waking w
  passing : Passing w

theorem Statement.good (step : Statement self w w') (good : Good w) : Good w' :=
  ⟨step.inv good.inv, step.waking good.waking, step.passing good.inv good.passing⟩

/-- The steps an actor may take in one section. -/
def Steps (actor : Actor) : World → World → Prop := Relation.ReflTransGen (Statement actor)

theorem Steps.grows (steps : Steps actor w w') : Grows w w' := by
  induction steps with
  | refl => exact .refl _
  | tail _ last ih => exact ih.trans last.grows

theorem Steps.good (steps : Steps actor w w') (good : Good w) : Good w' := by
  induction steps with
  | refl => exact good
  | tail _ last ih => exact last.good ih

end Crewd.Bus
