import Crewd.Bus.Moving

/-! The batch that the delivery loop has claimed and works through. While it does,
the other threads pull messages and enqueue new ones, and the loop touches one row
after the other; what is known of the messages still to come survives both. -/
namespace Crewd.Bus
open Autocommit Concurrent Table

/-- Neither a sweep nor another claim. -/
def Passage.inBatch : Passage → Bool
  | .swept _ | .claiming _ _ => false
  | _ => true

/-- What the threads beside the delivery loop leave in the history. -/
def Passage.beside : Passage → Bool
  | .enqueued .. | .moved .pulled .. | .pulling .. | .shown .. => true
  | _ => false

theorem Passage.inBatch_of_beside {passage : Passage} (beside : passage.beside = true) :
    passage.inBatch = true := by
  cases passage <;> first | rfl | cases beside

theorem Passage.inBatch_of_isMove {passage : Passage} (moved : passage.isMove = true) :
    passage.inBatch = true := by
  cases passage <;> first | rfl | cases moved

/-- Passages of one kind were added, and the rows that are not set apart were left
alone or pulled. -/
structure Onward (kind : Passage → Bool) (apart : String → String → Prop) (w w' : World) : Prop where
  history : ∃ more, passages w'.history = more ++ passages w.history ∧
    ∀ passage ∈ more, kind passage = true
  rows : ∀ d ∈ w.store.deliveries, ¬ apart d.envelopeId d.recipient →
    ∃ d' ∈ w'.store.deliveries, d'.is d.envelopeId d.recipient = true ∧
      (d'.state = d.state ∨ d'.state = .delivered)

namespace Onward
variable {kind : Passage → Bool} {apart : String → String → Prop} {w w' w'' : World}

theorem still (deliveries : w'.store.deliveries = w.store.deliveries) (more : List Passage)
    (same : passages w'.history = more ++ passages w.history)
    (only : ∀ passage ∈ more, kind passage = true) : Onward kind apart w w' :=
  ⟨⟨more, same, only⟩, fun d member _ =>
    ⟨d, deliveries ▸ member, delivery_is_iff.mpr ⟨rfl, rfl⟩, .inl rfl⟩⟩

theorem quiet (same : World.Quiet w w') : Onward kind apart w w' :=
  .still (by rw [same.store]) [] (by rw [same.history]; rfl) (by simp)

theorem trans (first : Onward kind apart w w') (second : Onward kind apart w' w'') :
    Onward kind apart w w'' := by
  obtain ⟨more, same, only⟩ := first.history
  obtain ⟨more', same', only'⟩ := second.history
  refine ⟨⟨more' ++ more, by rw [same', same, List.append_assoc], ?_⟩, fun d member spared => ?_⟩
  · intro passage inside
    rcases List.mem_append.mp inside with later | before
    · exact only' passage later
    · exact only passage before
  · obtain ⟨d', member', is', state'⟩ := first.rows d member spared
    obtain ⟨id, address⟩ := delivery_is_iff.mp is'
    obtain ⟨d'', member'', is'', state''⟩ := second.rows d' member' (by rw [id, address]; exact spared)
    rw [id, address] at is''
    refine ⟨d'', member'', is'', ?_⟩
    rcases state'' with kept | pulled
    · rw [kept]
      exact state'
    · exact .inr pulled

theorem path {T : World → World → Prop} (each : ∀ w w', T w w' → Onward kind apart w w')
    (path : Relation.ReflTransGen T w w') : Onward kind apart w w' := by
  induction path with
  | refl => exact .quiet .rfl
  | tail _ last ih => exact ih.trans (each _ _ last)

theorem mono {kind' : Passage → Bool} {apart' : String → String → Prop}
    (wider : ∀ passage, kind passage = true → kind' passage = true)
    (more : ∀ m r, apart m r → apart' m r) (onward : Onward kind apart w w') :
    Onward kind' apart' w w' := by
  obtain ⟨added, same, only⟩ := onward.history
  exact ⟨⟨added, same, fun passage inside => wider passage (only passage inside)⟩,
    fun d member spared => onward.rows d member fun set => spared (more _ _ set)⟩

theorem moved {cause : Cause} {p : Delivery → Bool} {f : Delivery → Delivery}
    (moves : ∀ (d : Delivery) state state', kind (.moved cause d.envelopeId d.recipient state state') = true)
    (keeps : ∀ d, (f d).envelopeId = d.envelopeId ∧ (f d).recipient = d.recipient)
    (hit : ∀ d, p d = true → apart d.envelopeId d.recipient ∨ (f d).state = .delivered) :
    Onward kind apart w (moveRows cause p f w) := by
  refine ⟨⟨_, passages_moveRows w, ?_⟩, fun d member spared => ?_⟩
  · intro passage inside
    obtain ⟨d, _, rfl⟩ := List.mem_map.mp inside
    exact moves d _ _
  · refine ⟨if p d then f d else d, mem_updateWhere.mpr ⟨d, member, rfl⟩, ?_⟩
    split
    · refine ⟨delivery_is_iff.mpr (keeps d), ?_⟩
      rcases hit d ‹_› with set | delivered
      · exact absurd set spared
      · exact .inr delivered
    · exact ⟨delivery_is_iff.mpr ⟨rfl, rfl⟩, .inl rfl⟩

end Onward

section Looking
variable {more passed : List Passage} (only : ∀ passage ∈ more, passage.inBatch = true)
include only

theorem swept_inBatch : Swept env recipient (more ++ passed) = Swept env recipient passed := by
  refine skip_all (fun passage earlier kind => ?_) only
  cases passage <;> first | rfl | cases kind

theorem heldNow_inBatch : heldNow (more ++ passed) = heldNow passed := by
  refine skip_all (fun passage earlier kind => ?_) only
  cases passage <;> first | rfl | cases kind

theorem sinceClaiming_inBatch : sinceClaiming (more ++ passed) = more ++ sinceClaiming passed := by
  induction more with
  | nil => rfl
  | cons passage rest ih =>
    have first := only passage List.mem_cons_self
    have tail := ih fun x h => only x (List.mem_cons_of_mem _ h)
    cases passage with
    | swept _ | claiming _ _ => cases first
    | _ => exact congrArg (_ :: ·) tail

end Looking

section Aside
variable {more passed : List Passage} (only : ∀ passage ∈ more, passage.beside = true)
include only

theorem lastApplying_beside : lastApplying (more ++ passed) = lastApplying passed := by
  refine skip_all (fun passage earlier kind => ?_) only
  cases passage <;> first | rfl | cases kind

theorem lastMove_beside : lastMove (more ++ passed) = lastMove passed := by
  refine skip_all (fun passage earlier kind => ?_) only
  cases passage with
  | moved cause m r before after =>
    cases cause <;> first | rfl | cases kind
  | _ => first | rfl | cases kind

end Aside

/-- The message is settled, or was held back when the batch was claimed, or has had
an outcome that did not settle it. -/
def Resolved (messageId recipient : String) (w : World) : Prop :=
  (∃ d ∈ w.store.deliveries, d.is messageId recipient = true ∧ d.pending = false) ∨
  (messageId, recipient) ∈ heldNow (passages w.history) ∨
  ∃ passage ∈ sinceClaiming (passages w.history),
    passage.applies messageId recipient = true ∧ passage.final = false

/-- What is known of a claimed message that still waits for its turn after those in
`ahead`. -/
structure Turn (ahead : List (Envelope × String)) (entry : Envelope × String) (w : World) :
    Prop where
  unswept : ¬ Swept entry.1 entry.2 (passages w.history)
  live : ∃ d ∈ w.store.deliveries, d.is entry.1.messageId entry.2 = true ∧
    (d.state = .claimed ∨ d.state = .delivered)
  order : ∃ later before, enqueues (passages w.history) = later ++ entry :: before ∧
    ∀ earlier ∈ before, earlier.2 = entry.2 → earlier.1.fromCell = entry.1.fromCell →
      earlier ∈ ahead ∨ Resolved earlier.1.messageId earlier.2 w

/-- The claimed messages that still wait for their turn, each once. -/
structure Batch (rest : List (Envelope × String)) (w : World) : Prop where
  once : (rest.map fun entry => (entry.1.messageId, entry.2)).Nodup
  turns : ∀ ahead entry behind, rest = ahead ++ entry :: behind → Turn ahead entry w

section Keeping
variable {kind : Passage → Bool} {apart : String → String → Prop} {w w' : World}
  {rest : List (Envelope × String)}

theorem settled_onward (onward : Onward kind apart w w') (spared : ¬ apart messageId recipient)
    (row : ∃ d ∈ w.store.deliveries, d.is messageId recipient = true ∧ d.pending = false) :
    ∃ d ∈ w'.store.deliveries, d.is messageId recipient = true ∧ d.pending = false := by
  obtain ⟨d, member, is, settled⟩ := row
  obtain ⟨id, address⟩ := delivery_is_iff.mp is
  obtain ⟨d', member', is', state⟩ := onward.rows d member (by rw [id, address]; exact spared)
  rw [id, address] at is'
  refine ⟨d', member', is', ?_⟩
  rcases state with kept | pulled
  · rw [← settled, Delivery.pending, Delivery.pending, kept]
  · simp [Delivery.pending, pulled]

variable (batched : ∀ passage, kind passage = true → passage.inBatch = true)
include batched

theorem Resolved.onward (onward : Onward kind apart w w') (spared : ¬ apart messageId recipient)
    (resolved : Resolved messageId recipient w) : Resolved messageId recipient w' := by
  obtain ⟨more, same, only⟩ := onward.history
  have only' := fun passage inside => batched passage (only passage inside)
  rcases resolved with settled | held | ⟨passage, inside, applied⟩
  · exact .inl (settled_onward onward spared settled)
  · exact .inr (.inl (by rw [same, heldNow_inBatch only']; exact held))
  · refine .inr (.inr ⟨passage, ?_, applied⟩)
    rw [same, sinceClaiming_inBatch only']
    exact List.mem_append_right _ inside

/-- Where the steps do not touch the message itself, and resolve those they touch. -/
theorem Turn.onward {ahead ahead' : List (Envelope × String)} (onward : Onward kind apart w w')
    (spared : ¬ apart entry.1.messageId entry.2)
    (others : ∀ earlier : Envelope × String, apart earlier.1.messageId earlier.2 →
      Resolved earlier.1.messageId earlier.2 w')
    (fewer : ∀ earlier ∈ ahead, earlier ∈ ahead' ∨ Resolved earlier.1.messageId earlier.2 w')
    (turn : Turn ahead entry w) : Turn ahead' entry w' := by
  obtain ⟨more, same, only⟩ := onward.history
  have only' := fun passage inside => batched passage (only passage inside)
  refine ⟨by rw [same, swept_inBatch only']; exact turn.unswept, ?_, ?_⟩
  · obtain ⟨d, member, is, live⟩ := turn.live
    obtain ⟨id, address⟩ := delivery_is_iff.mp is
    obtain ⟨d', member', is', state⟩ := onward.rows d member (by rw [id, address]; exact spared)
    rw [id, address] at is'
    refine ⟨d', member', is', ?_⟩
    rcases state with kept | pulled
    · rw [kept]
      exact live
    · exact .inr pulled
  · obtain ⟨later, before, listed, order⟩ := turn.order
    refine ⟨enqueues more ++ later, before, ?_, fun earlier inside address sender => ?_⟩
    · rw [same, enqueues, List.filterMap_append, List.append_assoc]
      exact congrArg _ listed
    · by_cases touched : apart earlier.1.messageId earlier.2
      · exact .inr (others earlier touched)
      · rcases order earlier inside address sender with first | resolved
        · exact fewer earlier first
        · exact .inr (resolved.onward batched onward touched)

theorem Batch.onward (onward : Onward kind (fun _ _ => False) w w') (batch : Batch rest w) :
    Batch rest w' where
  once := batch.once
  turns ahead entry behind split :=
    (batch.turns ahead entry behind split).onward batched onward (fun h => h)
      (fun _ h => h.elim) fun _ h => .inl h

/-- The first message of the batch has had its turn. -/
theorem Batch.advance {entry : Envelope × String}
    (onward : Onward kind (fun m r => m = entry.1.messageId ∧ r = entry.2) w w')
    (resolved : Resolved entry.1.messageId entry.2 w') (batch : Batch (entry :: rest) w) :
    Batch rest w' := by
  obtain ⟨absent, once⟩ := List.nodup_cons.mp batch.once
  refine ⟨once, fun ahead next behind split => ?_⟩
  have turn := batch.turns (entry :: ahead) next behind (by rw [split]; rfl)
  refine turn.onward batched onward (fun ⟨id, address⟩ => absent ?_) (fun earlier ⟨id, address⟩ => ?_)
    fun earlier inside => ?_
  · refine List.mem_map.mpr ⟨next, by simp [split], ?_⟩
    rw [id, address]
  · rw [id, address]
    exact resolved
  · rcases List.mem_cons.mp inside with rfl | member
    · exact .inr resolved
    · exact .inl member

end Keeping

section Turns
variable [Platform] {w : World} {rest : List (Envelope × String)} {entry : Envelope × String}

theorem enqueues_once (good : Good w) :
    ((enqueues (passages w.history)).map fun entry => (entry.1.messageId, entry.2)).Nodup := by
  have listed := good.inv.deliveriesOnce
  rw [good.passing.listed] at listed
  rwa [List.map_reverse, List.nodup_reverse] at listed

/-- The first message of the batch is in turn. -/
theorem Batch.inTurn (good : Good w) (batch : Batch (entry :: rest) w) :
    InTurn w entry.1.messageId entry.2 := by
  intro env earlier id sender precedes
  obtain ⟨later, before, listed, order⟩ := (batch.turns [] entry rest rfl).order
  obtain ⟨later', before', listed', first⟩ := precedes
  have distinct := enqueues_once good
  have same : entry = (env, entry.2) :=
    List.inj_on_of_nodup_map distinct (by rw [listed]; simp) (by rw [listed']; simp) (by simp [id])
  have split : before = before' := by
    have nodup := distinct.of_map
    rw [listed] at nodup listed'
    rw [← same] at listed'
    have alone := List.nodup_append.mp nodup
    have here : entry ∉ later := fun inside => alone.2.2 _ inside _ List.mem_cons_self rfl
    have after : entry ∉ before := (List.nodup_cons.mp alone.2.1).1
    exact ((List.append_cons_inj_of_notMem here after).mp listed').2.2
  rw [← split] at first
  have envelope : entry.1 = env := congrArg Prod.fst same
  rcases order _ first rfl (by rw [envelope]; exact sender) with none | resolved
  · cases none
  · refine resolved.imp_left fun ⟨d, member, is, settled⟩ e here hit => ?_
    obtain ⟨id₁, address₁⟩ := delivery_is_iff.mp is
    obtain ⟨id₂, address₂⟩ := delivery_is_iff.mp hit
    rw [row_unique good.inv.deliveriesOnce here member (id₂.trans id₁.symm)
      (address₂.trans address₁.symm)]
    exact settled

/-- A retry of the first message finds none of its envelopes swept. -/
theorem Batch.unswept (good : Good w) (batch : Batch (entry :: rest) w) :
    ∀ env, (env, entry.2) ∈ enqueues (passages w.history) → env.messageId = entry.1.messageId →
      ¬ Swept env entry.2 (passages w.history) := by
  intro env enqueued id
  obtain ⟨later, before, listed, _⟩ := (batch.turns [] entry rest rfl).order
  have same : (env, entry.2) = entry :=
    List.inj_on_of_nodup_map (enqueues_once good) enqueued (by rw [listed]; simp) (by simp [id])
  have turn := (batch.turns [] entry rest rfl).unswept
  rw [← same] at turn
  exact turn

end Turns
end Crewd.Bus
