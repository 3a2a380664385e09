import Crewd.Bus.Acknowledged
import Crewd.Bus.Counting
import Crewd.Bus.Runs

/-! Failing submissions. Each of the four writing tools does its work in one section of
autocommitted statements, so a call that returns an error leaves the deliveries, asks and
dedupe bindings as they were exactly when none of its statements fails after the first
write to these tables. -/
namespace Crewd.Bus
open Autocommit Concurrent Table

/-- The tables that a client can see the effects of are the same. -/
structure SameTables (w w' : World) : Prop where
  deliveries : w'.store.deliveries = w.store.deliveries
  asks : w'.store.asks = w.store.asks
  dedupe : w'.store.dedupe = w.store.dedupe

theorem SameTables.ofStore (store : w'.store = w.store) : SameTables w w' :=
  ⟨by rw [store], by rw [store], by rw [store]⟩

theorem SameTables.trans (first : SameTables w w') (second : SameTables w' w'') :
    SameTables w w'' :=
  ⟨second.deliveries.trans first.deliveries, second.asks.trans first.asks,
    second.dedupe.trans first.dedupe⟩

theorem sameTables_install : SameTables (w.install i) w' ↔ SameTables w w' :=
  ⟨fun same => ⟨same.deliveries, same.asks, same.dedupe⟩,
    fun same => ⟨same.deliveries, same.asks, same.dedupe⟩⟩

/-- Nothing is written to the tables yet; identifiers may be drawn. -/
structure Unwritten (w₀ w : World) : Prop where
  same : SameTables w₀ w
  minted : w₀.minted ≤ w.minted

theorem Unwritten.refl (w : World) : Unwritten w w := ⟨.ofStore rfl, Nat.le_refl _⟩

theorem Unwritten.unread : Unread (Unwritten w₀) := fun _ _ quiet unwritten =>
  ⟨unwritten.same.trans (.ofStore quiet.store), Nat.le_trans unwritten.minted quiet.minted⟩

/-- These delivery rows are written. -/
def Delivered (w₀ : World) (rows : List Delivery) (w : World) : Prop :=
  w.store.deliveries = w₀.store.deliveries ++ rows

theorem Delivered.unread : Unread (Delivered w₀ rows) := fun _ _ quiet delivered => by
  rw [Delivered, quiet.store]; exact delivered

theorem Delivered.changed (delivered : Delivered w₀ (row :: rows) w) : ¬ SameTables w₀ w := by
  intro same
  have rows := delivered.symm.trans same.deliveries
  simp at rows

/-- No delivery of the message was there before. -/
def New (w₀ : World) (messageId : String) : Prop :=
  ∀ r, ∀ d ∈ w₀.store.deliveries, d.is messageId r = false

variable {w₀ : World} {P E : World → Prop}

section Parts

private theorem drawing_counts (fromCell toCell : String) :
    Counts 3 (Unwritten w₀) (do
      execute (·.withCounter fromCell toCell)
      match ← query (·.seqCounters.find? (·.is fromCell toCell)) with
      | none => throw (db "Query returned no rows")
      | some row =>
        execute (·.countUp fromCell toCell)
        pure row.nextSeq : Act Nat) (fun _ => Unwritten w₀) (fun _ => True) := by
  let Counter (w : World) := ∃ row, w.store.seqCounters.find? (·.is fromCell toCell) = some row
  refine Counts.bind (l := 2) (Q := fun _ w => Unwritten w₀ w ∧ Counter w)
    (Counts.execute Unwritten.unread (fun _ _ => trivial) fun w unwritten =>
      ⟨⟨?_, unwritten.minted⟩, ?_⟩) fun _ => ?_
  · obtain ⟨c, only⟩ := withCounter_only w.store fromCell toCell
    refine unwritten.same.trans ⟨?_, ?_, ?_⟩ <;> simp only [only]
  · simp only [Counter, Store.withCounter]
    split
    · rename_i known
      exact Option.isSome_iff_exists.mp (by simpa [List.find?_isSome] using known)
    · simp [List.find?_append, SeqCounter.is]
  have unread : Unread fun w => Unwritten w₀ w ∧ Counter w := fun w w' quiet ⟨unwritten, counter⟩ =>
    ⟨Unwritten.unread w w' quiet unwritten, by simpa only [Counter, quiet.store] using counter⟩
  refine Counts.bind (l := 1) (Counts.query unread fun _ _ => trivial) fun row => ?_
  cases row with
  | none =>
    refine Counts.vacuous fun w ⟨⟨_, counter⟩, found⟩ => ?_
    obtain ⟨row, there⟩ := counter
    rw [there] at found
    cases found
  | some row =>
    have counted : ∀ w : World, Unwritten w₀ w →
        Unwritten w₀ { w with store := w.store.countUp fromCell toCell } := fun w unwritten =>
      ⟨unwritten.same.trans ⟨rfl, rfl, rfl⟩, unwritten.minted⟩
    refine Counts.weaken (fun w here => here.1.1) (fun _ _ h => h) (Counts.bind (l := 0)
      (Counts.execute Unwritten.unread (fun _ _ => trivial) counted) fun _ => ?_)
    exact Counts.pure fun _ here => here

/-- Its `BEGIN`, its three statements and its `COMMIT`; the other tables stay. -/
theorem nextSeq_counts (fromCell toCell : String) : Counts 5 (Unwritten w₀)
    (nextSeq fromCell toCell) (fun _ => Unwritten w₀) (SameTables w₀) :=
  Counts.transaction Unwritten.unread (fun _ => Unwritten.unread) (fun _ unwritten => unwritten.same)
    (fun _ _ unwritten => unwritten.same.trans (.ofStore rfl)) (drawing_counts fromCell toCell)

theorem insertEnvelope_counts (env : Envelope) :
    Counts 1 (Unwritten w₀) (insertEnvelope env) (fun _ => Unwritten w₀) (SameTables w₀) :=
  Counts.execute Unwritten.unread (fun _ unwritten => unwritten.same) fun _ unwritten =>
    ⟨unwritten.same.trans ⟨rfl, rfl, rfl⟩, unwritten.minted⟩

theorem audit_counts {kind outcome : String} {messageId fromCell toCell : Option String}
    {detail : Option Json} (known : kind ∈ auditKinds) :
    Counts 1 (Unwritten w₀) (audit kind messageId fromCell toCell outcome detail)
      (fun _ => Unwritten w₀) (SameTables w₀) :=
  Counts.audit known Unwritten.unread (fun _ unwritten => unwritten.same) fun _ _ unwritten =>
    ⟨unwritten.same.trans (.ofStore rfl), unwritten.minted⟩

/-- One more row for a message whose rows are all new. -/
theorem insertDelivery_adds (new : New w₀ messageId) {rows : List Delivery}
    (apart : ∀ d ∈ rows, d.is messageId recipient = false) (delivered : Delivered w₀ rows w) :
    Delivered w₀ (rows ++ [freshDelivery messageId recipient])
      (insertDeliveryRow messageId recipient w) := by
  simp only [Delivered, insertDeliveryRow] at delivered ⊢
  rw [replaceInto_new, delivered, List.append_assoc]
  · rfl
  · intro d member
    rw [delivered] at member
    rcases List.mem_append.mp member with old | added
    · exact new recipient d old
    · exact apart d added

theorem Unwritten.delivered (unwritten : Unwritten w₀ w) : Delivered w₀ [] w := by
  rw [Delivered, unwritten.same.deliveries, List.append_nil]

/-- The first row of a message. -/
theorem insertDelivery_first (new : New w₀ messageId) (recipient : String) :
    Counts 1 (Unwritten w₀) (insertDelivery messageId recipient)
      (fun _ => Delivered w₀ [freshDelivery messageId recipient]) (SameTables w₀) :=
  Counts.update Unwritten.unread (fun _ => rfl) (fun _ unwritten => unwritten.same) fun _ unwritten =>
    insertDelivery_adds new (by simp) unwritten.delivered

theorem dedupeInsert_after (row : Delivery) (rows : List Delivery)
    (caller key messageId hash : String) (askId : Option String) :
    Counts 1 (Delivered w₀ (row :: rows)) (dedupeInsert caller key messageId askId hash)
      (fun _ => Delivered w₀ (row :: rows)) (¬ SameTables w₀ ·) := by
  refine Counts.bind (l := 1) (Counts.nowRfc3339 Delivered.unread) fun _ => ?_
  exact Counts.execute Delivered.unread (fun _ delivered => delivered.changed) fun _ h => h

/-- A broadcast that reaches nobody writes its binding only. -/
theorem dedupeInsert_alone (caller key messageId hash : String) (askId : Option String) :
    Counts 1 (Unwritten w₀) (dedupeInsert caller key messageId askId hash)
      (fun _ => Delivered w₀ []) (SameTables w₀) := by
  refine Counts.bind (l := 1) (Counts.nowRfc3339 Unwritten.unread) fun _ => ?_
  exact Counts.execute Unwritten.unread (fun _ unwritten => unwritten.same) fun _ unwritten =>
    unwritten.delivered

theorem insertAsk_after (row : Delivery) (rows : List Delivery)
    (askId messageId fromCell toCell expiresAt : String) :
    Counts 1 (Delivered w₀ (row :: rows)) (insertAsk askId messageId fromCell toCell expiresAt)
      (fun _ => Delivered w₀ (row :: rows)) (¬ SameTables w₀ ·) :=
  Counts.execute Delivered.unread (fun _ delivered => delivered.changed) fun _ delivered => delivered

/-- The rows of a message to the recipients after its first one. -/
theorem insertDeliveries_after (new : New w₀ messageId) {recipients : List String}
    (once : recipients.Nodup) {row : Delivery} {rows : List Delivery}
    (apart : ∀ d ∈ row :: rows, ∀ r ∈ recipients, d.is messageId r = false) :
    Counts recipients.length (Delivered w₀ (row :: rows))
      (recipients.forM fun r => insertDelivery messageId r)
      (fun _ => Delivered w₀ (row :: rows ++ recipients.map (freshDelivery messageId)))
      (¬ SameTables w₀ ·) := by
  induction recipients generalizing rows with
  | nil => exact Counts.pure fun w delivered => by simpa using delivered
  | cons r rest ih =>
    obtain ⟨absent, once⟩ := List.nodup_cons.mp once
    rw [List.length_cons, Nat.add_comm]
    have first : Counts 1 (Delivered w₀ (row :: rows)) (insertDelivery messageId r)
        (fun _ => Delivered w₀ (row :: (rows ++ [freshDelivery messageId r])))
        (¬ SameTables w₀ ·) :=
      Counts.update Delivered.unread (fun _ => rfl) (fun _ delivered => delivered.changed)
        fun _ delivered => insertDelivery_adds new
          (fun d member => apart d member r List.mem_cons_self) delivered
    refine first.bind fun _ => ?_
    have apart' : ∀ d ∈ row :: (rows ++ [freshDelivery messageId r]), ∀ r' ∈ rest,
        d.is messageId r' = false := by
      intro d member r' later
      rw [← List.cons_append] at member
      rcases List.mem_append.mp member with before | added
      · exact apart d before r' (List.mem_cons_of_mem _ later)
      · cases List.mem_singleton.mp added
        have other : r ≠ r' := fun same => absent (same ▸ later)
        simp [freshDelivery, Delivery.is, other]
    exact (ih once apart').weaken (fun _ h => h) fun _ _ delivered => by simpa using delivered

variable [Platform]

theorem keyOrNew_counts (key : Option String) (w : World) :
    Counts 0 (· = w) (keyOrNew key) (fun k v => k = key.getD (Platform.uuid w.minted) ∧ Unwritten w v)
      E := by
  constructor
  · rintro v rfl _
    obtain ⟨v', quiet, input, ran⟩ := keyOrNew_exec key v
    exact ⟨_, v', ran, by rw [input]; rfl, rfl, Unwritten.unread v v' quiet (.refl v)⟩
  · exact fun v _ faulty => absurd (by simp [Faultless]) faulty

theorem newUuidv7_counts (w : World) : Counts 0 (Unwritten w) newUuidv7 (fun _ => Unwritten w) E :=
  Counts.step (fun _ => rfl) fun _ unwritten =>
    ⟨unwritten.same.trans (.ofStore rfl), Nat.le_succ_of_le unwritten.minted⟩

theorem buildEnvelopeWithCaps_counts (inv : Inv w₀) (draft : EnvelopeDraft) :
    Counts 0 (Unwritten w₀) (buildEnvelopeWithCaps draft)
      (fun env w => Unwritten w₀ w ∧ New w₀ env.messageId) E := by
  have drawn : Counts 0 (Unwritten w₀) newUuidv7 (fun id w => Unwritten w₀ w ∧ New w₀ id) E :=
    Counts.step (fun _ => rfl) fun w unwritten =>
      ⟨⟨unwritten.same.trans (.ofStore rfl), Nat.le_succ_of_le unwritten.minted⟩,
        (new_envelope inv unwritten.minted).2⟩
  have unread : ∀ id, Unread fun w => Unwritten w₀ w ∧ New w₀ id := fun id w w' quiet here =>
    ⟨Unwritten.unread w w' quiet here.1, here.2⟩
  refine Counts.bind (l := 0) (Q := fun env w => Unwritten w₀ w ∧ New w₀ env.messageId)
    (Counts.bind (l := 0) drawn fun id => ?_) fun env => ?_
  · refine Counts.bind (l := 0) (Counts.nowRfc3339 (unread id)) fun createdAt => ?_
    exact Counts.bind (l := 0) (Counts.rfc3339After (unread id) _) fun expiresAt =>
      Counts.pure fun _ here => here
  · exact Counts.bind (l := 0) (Counts.step (fun _ => rfl) fun _ here => here) fun _ =>
      Counts.pure fun _ here => here

end Parts

section Writing
variable [Platform]

/-- The rows that an acknowledged submission has added. -/
def Decision.Adds (d : Decision) (w₀ : World) (a : Answer) (w : World) : Prop :=
  ∃ m askId, a.acknowledged = some (m, askId) ∧
    Delivered w₀ (d.submission.recipients.map (freshDelivery m)) w

theorem freshSend_tears (inv : Inv w₀) :
    Tears 8 9 (Unwritten w₀) (freshSend caller p key) (Decision.Adds (.send caller p) w₀)
      (SameTables w₀) (¬ SameTables w₀ ·) := by
  refine Tears.bind (s := 3) (t := 4) (nextSeq_counts caller p.toCell) fun seq => ?_
  refine Tears.bind (s := 3) (t := 4) (buildEnvelopeWithCaps_counts inv _) fun env => ?_
  refine Tears.assume fun new => ?_
  refine Tears.bind (s := 2) (t := 3) (insertEnvelope_counts env) fun _ => ?_
  refine Tears.bind (s := 1) (t := 2) (audit_counts (by decide)) fun _ => ?_
  refine Tears.bind (s := 0) (t := 1) (insertDelivery_first new p.toCell) fun _ => Tears.ofCounts ?_
  refine Counts.bind (l := 0) (dedupeInsert_after _ _ _ _ _ _ _) fun _ =>
    Counts.pure fun w delivered => ?_
  exact ⟨env.messageId, none, rfl, delivered⟩

theorem freshAsk_tears (inv : Inv w₀) :
    Tears 9 11 (Unwritten w₀) (freshAsk caller p key askId) (Decision.Adds (.ask caller p) w₀)
      (SameTables w₀) (¬ SameTables w₀ ·) := by
  refine Tears.bind (s := 4) (t := 6) (nextSeq_counts caller p.toCell) fun seq => ?_
  refine Tears.bind (s := 4) (t := 6) (buildEnvelopeWithCaps_counts inv _) fun env => ?_
  refine Tears.assume fun new => ?_
  refine Tears.bind (s := 3) (t := 5) (insertEnvelope_counts env) fun _ => ?_
  refine Tears.bind (s := 2) (t := 4) (audit_counts (by decide)) fun _ => ?_
  refine Tears.bind (s := 1) (t := 3) (audit_counts (by decide)) fun _ => ?_
  refine Tears.bind (s := 0) (t := 2) (insertDelivery_first new p.toCell) fun _ => Tears.ofCounts ?_
  refine Counts.bind (l := 2) (Counts.rfc3339After Delivered.unread _) fun expiresAt => ?_
  refine Counts.bind (l := 1) (insertAsk_after _ _ _ _ _ _ _) fun _ => ?_
  refine Counts.bind (l := 0) (dedupeInsert_after _ _ _ _ _ _ _) fun _ =>
    Counts.pure fun w delivered => ?_
  exact ⟨env.messageId, some askId, rfl, delivered⟩

theorem freshBroadcast_tears (inv : Inv w₀) {included denied : List String} (once : included.Nodup) :
    Tears (denied.length + 3) (denied.length + 3 + included.length) (Unwritten w₀)
      (freshBroadcast caller p included denied key)
      (fun a w => ∃ m askId, a.acknowledged = some (m, askId) ∧
        Delivered w₀ (included.map (freshDelivery m)) w)
      (SameTables w₀) (¬ SameTables w₀ ·) := by
  have denials : ∀ m, Counts denied.length (Unwritten w₀) (denied.forM fun d =>
      audit "protected_access_denied" (some m) (some caller) (some d) "denied" none)
      (fun _ => Unwritten w₀) (SameTables w₀) := fun m =>
    Counts.forM fun d _ => audit_counts (by decide)
  cases included with
  | nil =>
    rw [List.length_nil, Nat.add_zero,
      show denied.length + 3 = 0 + (1 + (denied.length + (1 + (0 + 1)))) by omega]
    refine Tears.bind (buildEnvelopeWithCaps_counts inv _) fun env => Tears.assume fun new => ?_
    refine Tears.whole ((insertEnvelope_counts env).bind fun _ => (denials _).bind fun _ => ?_)
    refine (audit_counts (by decide)).bind fun _ => Counts.bind (Q := fun _ => Unwritten w₀)
      (Counts.pure fun _ unwritten => unwritten) fun _ => ?_
    refine Counts.bind (l := 0) (dedupeInsert_alone _ _ _ _ _) fun _ =>
    Counts.pure fun w delivered => ?_
    exact ⟨env.messageId, none, rfl, delivered⟩
  | cons r rest =>
    obtain ⟨absent, once⟩ := List.nodup_cons.mp once
    rw [List.length_cons, show denied.length + 3 + (rest.length + 1) =
        0 + (1 + (denied.length + (1 + (1 + (rest.length + 1))))) by omega,
      show denied.length + 3 = 0 + (1 + (denied.length + (1 + (1 + 0)))) by omega]
    refine Tears.bind (buildEnvelopeWithCaps_counts inv _) fun env => Tears.assume fun new => ?_
    refine Tears.bind (insertEnvelope_counts env) fun _ => Tears.bind (denials _) fun _ => ?_
    refine Tears.bind (audit_counts (by decide)) fun _ => ?_
    have one : (r :: rest).forM (fun r => insertDelivery env.messageId r) = (do
      insertDelivery env.messageId r
      rest.forM fun r => insertDelivery env.messageId r) := rfl
    rw [one, bind_assoc]
    refine Tears.bind (insertDelivery_first new r) fun _ => Tears.ofCounts ?_
    refine Counts.bind (insertDeliveries_after new once ?_) fun _ => ?_
    · intro d member r' later
      cases List.mem_singleton.mp member
      have other : r ≠ r' := fun same => absent (same ▸ later)
      simp [freshDelivery, Delivery.is, other]
    refine Counts.bind (l := 0) (dedupeInsert_after _ _ _ _ _ _ _) fun _ =>
    Counts.pure fun w delivered => ?_
    exact ⟨env.messageId, none, rfl, delivered⟩

/-- An unbound key lets the fresh submission run. -/
theorem deduped_tears {replay : DedupeHit → Answer} {fresh : Act Answer}
    {Q : Answer → World → Prop} (unbound : w₀.store.binding caller key = none)
    (tears : Tears s t (Unwritten w₀) fresh Q (SameTables w₀) (¬ SameTables w₀ ·)) :
    Tears (1 + s) (1 + t) (Unwritten w₀) (deduped caller key body replay fresh) Q (SameTables w₀)
      (¬ SameTables w₀ ·) := by
  refine Tears.bind (Counts.query Unwritten.unread fun _ unwritten => unwritten.same) fun hit => ?_
  cases hit with
  | none => exact tears.weaken (fun _ here => here.1) fun _ _ last => last
  | some hit =>
    refine Tears.vacuous fun w ⟨unwritten, found⟩ => ?_
    rw [Store.binding, unwritten.same.dedupe] at found
    rw [Store.binding] at unbound
    simp [unbound] at found

namespace Decision

/-- The statements of the section up to the first that writes to the tables. -/
def safe : Decision → Nat
  | send _ _ => 9
  | ask _ _ => 10
  | broadcast caller _ acl => (acl.recipientsForBroadcast caller).2.length + 4

/-- All statements of the section, when its key is not bound. -/
def statements : Decision → Nat
  | send _ _ => 10
  | ask _ _ => 12
  | broadcast caller _ acl => (acl.recipientsForBroadcast caller).2.length + 4 +
      (acl.recipientsForBroadcast caller).1.length

theorem submit_tears (d : Decision) (inv : Inv w) (unbound : d.bound w = none) :
    Tears d.safe d.statements (· = w) d.submit (d.Adds w) (SameTables w) (¬ SameTables w ·) := by
  cases d with
  | send caller p =>
    refine Tears.bind (s := 9) (t := 10) (keyOrNew_counts p.idempotencyKey w) fun key => ?_
    refine Tears.weaken (fun v here => And.comm.mp here) (fun _ _ last => last)
      (Tears.assume fun same => ?_)
    subst same
    exact deduped_tears unbound (freshSend_tears inv)
  | ask caller p =>
    refine Tears.bind (s := 10) (t := 12) (keyOrNew_counts p.idempotencyKey w) fun key => ?_
    refine Tears.weaken (fun v here => And.comm.mp here) (fun _ _ last => last)
      (Tears.assume fun same => ?_)
    subst same
    exact Tears.bind (newUuidv7_counts w) fun askId => deduped_tears unbound (freshAsk_tears inv)
  | broadcast caller p acl =>
    have sizes : ∀ k, (acl.recipientsForBroadcast caller).2.length + 4 + k =
        0 + (1 + ((acl.recipientsForBroadcast caller).2.length + 3 + k)) := by omega
    simp only [safe, statements]
    rw [sizes, ← Nat.add_zero (_ + 4), sizes]
    refine Tears.bind (keyOrNew_counts p.idempotencyKey w) fun key => ?_
    refine Tears.weaken (fun v here => And.comm.mp here) (fun _ _ last => last)
      (Tears.assume fun same => ?_)
    subst same
    exact deduped_tears unbound (freshBroadcast_tears inv (acl.recipientsForBroadcast_nodup caller))

/-- A key that is bound is replayed or refused, and nothing is written. -/
theorem submit_bound (d : Decision) (bound : d.bound w = some row) :
    SameTables w (d.submit.exec w).2 := by
  obtain ⟨w₁, fresh, quiet, _, _, ran⟩ := d.submit_exec .main w
  rw [ran]
  simp only [deduped, Action.exec_bind]
  obtain ⟨w₂, quiet', ⟨_, looked⟩ | ⟨_, text, looked⟩⟩ := dedupeLookup_exec d.caller (d.key w) w₁
  · have found : w₁.store.binding d.caller (d.key w) = some row := by rw [quiet.store]; exact bound
    rw [looked, found]
    simp only [Option.map_some]
    split
    · exact .ofStore (quiet'.store.trans quiet.store)
    · exact .ofStore (quiet'.store.trans quiet.store)
  · rw [looked]
    exact .ofStore (quiet'.store.trans quiet.store)

end Decision

section Reply

/-- The ask still waits for its reply. -/
def Open (w : World) (askId : String) : Prop :=
  ∃ ask, w.store.ask askId = some ask ∧ ask.state = .pending

theorem replyPrecheck_counts (askId : String) (reply : Envelope) :
    Counts 1 (Unwritten w₀) (replyPrecheck askId reply)
      (fun outcome w => Unwritten w₀ w ∧ (outcome = .recorded ↔ Open w₀ askId)) (SameTables w₀) := by
  refine Counts.bind (l := 0) (Counts.query Unwritten.unread fun _ unwritten => unwritten.same)
    fun row => ?_
  have read : ∀ w, Unwritten w₀ w → w.store.ask askId = w₀.store.ask askId := fun w unwritten => by
    rw [Store.ask, unwritten.same.asks]; rfl
  cases row with
  | none =>
    refine Counts.pure fun w ⟨unwritten, found⟩ => ⟨unwritten, by simp, fun ⟨ask, known, _⟩ => ?_⟩
    rw [read w unwritten, known] at found
    cases found
  | some ask =>
    have pending : ∀ w, Unwritten w₀ w → some ask = w.store.ask askId →
        (Open w₀ askId ↔ ask.state = .pending) := by
      intro w unwritten found
      rw [read w unwritten] at found
      constructor
      · rintro ⟨ask', known, waits⟩
        rw [known] at found
        cases found
        exact waits
      · exact fun waits => ⟨ask, found.symm, waits⟩
    simp only
    split
    · rename_i settled
      split <;> refine Counts.pure fun w ⟨unwritten, found⟩ => ⟨unwritten, by simp, fun opened => ?_⟩
      · exact absurd ((pending w unwritten found).mp opened) settled
      · exact absurd ((pending w unwritten found).mp opened) settled
    · rename_i waits
      refine Counts.pure fun w ⟨unwritten, found⟩ => ⟨unwritten, fun _ => ?_, fun _ => rfl⟩
      exact (pending w unwritten found).mpr (by simpa using waits)

/-- The answer to an open ask shows in its row. -/
theorem commitReply_counts {askId : String} (reply : Envelope) (opened : Open w₀ askId) :
    Counts 1 (Unwritten w₀) (commitReply askId reply)
      (fun _ w => w.store.asks ≠ w₀.store.asks ∧ Delivered w₀ [] w) (SameTables w₀) := by
  refine Counts.update Unwritten.unread (fun _ => rfl) (fun _ unwritten => unwritten.same)
    fun w unwritten => ⟨fun same => ?_, unwritten.delivered⟩
  obtain ⟨ask, found, pending⟩ := opened
  obtain ⟨member, name⟩ := ask_of_find found
  simp only [Store.updateAsk, updateWhere, unwritten.same.asks] at same
  have kept := List.map_inj_left.mp (same.trans (List.map_id _).symm) ask member
  rw [if_pos (by simpa using name)] at kept
  have state := congrArg (·.state) kept
  rw [id_eq, pending] at state
  cases state

/-- A reply is recorded when its ask is open, with one row for the asker; else nothing is
written. -/
structure ReplyWritten (w : World) (p : ReplyParams) (ask : AskRow) (a : ReplyOutcome × String)
    (v : World) : Prop where
  recorded : a.1 = .recorded ↔ Open w p.askId
  adds : a.1 = .recorded → Delivered w [freshDelivery a.2 ask.fromCell] v
  same : a.1 ≠ .recorded → SameTables w v

private theorem submitReply_sizes (inv : Inv w) (opened : Open w p.askId → s = 3 ∧ t = 4)
    (settled : ¬ Open w p.askId → s = 0 ∧ t = 0) :
    Tears (6 + s) (6 + t) (· = w) (submitReply caller p ask) (ReplyWritten w p ask) (SameTables w)
      (¬ SameTables w ·) := by
  rw [Nat.add_assoc 5 1 s, Nat.add_assoc 5 1 t, ← Nat.zero_add (5 + _), ← Nat.zero_add (5 + (1 + t))]
  refine Tears.bind (keyOrNew_counts p.idempotencyKey w) fun key => ?_
  refine Tears.weaken (P := Unwritten w) (fun v here => here.2) (fun _ _ last => last) ?_
  refine Tears.bind (nextSeq_counts caller ask.fromCell) fun seq => ?_
  rw [← Nat.zero_add (1 + s), ← Nat.zero_add (1 + t)]
  refine Tears.bind (buildEnvelopeWithCaps_counts inv _) fun env => Tears.assume fun new => ?_
  refine Tears.bind (replyPrecheck_counts p.askId env) fun outcome => Tears.assume fun classified => ?_
  by_cases waits : Open w p.askId
  · obtain ⟨rfl, rfl⟩ := opened waits
    obtain rfl := classified.mpr waits
    simp only [recordReply, bind_assoc]
    refine Tears.bind (s := 2) (t := 3) (insertEnvelope_counts env) fun _ => ?_
    refine Tears.bind (s := 1) (t := 2) (audit_counts (by decide)) fun _ => ?_
    refine Tears.bind (s := 0) (t := 1) (commitReply_counts env waits) fun _ => Tears.ofCounts ?_
    refine Counts.bind (l := 0) (Q := fun _ => Delivered w [freshDelivery env.messageId ask.fromCell])
      (Counts.update ?_ (fun _ => rfl) (fun _ here same => here.1 same.asks)
        fun _ here => insertDelivery_adds new (by simp) here.2) fun _ => ?_
    · exact fun v v' quiet here =>
        ⟨by rw [quiet.store]; exact here.1, Delivered.unread v v' quiet here.2⟩
    · exact Counts.pure fun _ delivered =>
        ⟨by simp [waits], fun _ => delivered, fun other => absurd rfl other⟩
  · obtain ⟨rfl, rfl⟩ := settled waits
    cases outcome with
    | recorded => exact absurd (classified.mp rfl) waits
    | duplicateIdentical messageId =>
      exact Tears.whole (Counts.pure fun _ unwritten =>
        ⟨classified, nofun, fun _ => unwritten.same⟩)
    | conflict =>
      exact Tears.whole (Counts.pure fun _ unwritten =>
        ⟨classified, nofun, fun _ => unwritten.same⟩)

/-- A reply to an open ask: the answer is written before the delivery. -/
theorem submitReply_open (inv : Inv w) (opened : Open w p.askId) :
    Tears 9 10 (· = w) (submitReply caller p ask) (ReplyWritten w p ask) (SameTables w)
      (¬ SameTables w ·) :=
  submitReply_sizes inv (fun _ => ⟨rfl, rfl⟩) fun settled => absurd opened settled

/-- A reply to an ask that is not open writes nothing. -/
theorem submitReply_settled (inv : Inv w) (settled : ¬ Open w p.askId) :
    Tears 6 6 (· = w) (submitReply caller p ask) (ReplyWritten w p ask) (SameTables w)
      (¬ SameTables w ·) :=
  submitReply_sizes inv (fun opened => absurd opened settled) fun _ => ⟨rfl, rfl⟩

end Reply

end Writing

section Threads
variable [Platform] {α β : Type}

/-- What follows the writing section of a reply. -/
def afterReply (caller : String) (p : ReplyParams) (ask : AskRow) :
    ReplyOutcome × String → Handler Answer
  | (.recorded, messageId) => do
    locked (notifyAsker p.askId)
    pure (.recorded messageId)
  | (.duplicateIdentical messageId, _) => pure (.duplicate messageId)
  | (.conflict, _) =>
    refuse "duplicate_reply" caller (some ask.fromCell) "dropped"
      (.replyExists s!"differing reply for {p.askId}")

/-- What `cell_reply` does once it has found its ask. -/
def finishReply (caller : String) (p : ReplyParams) (ask : AskRow) : Handler Answer :=
  locked (submitReply caller p ask) >>= afterReply caller p ask

/-- The sections that write to the tables. -/
def Writing (code : Process World (Input Outside) (Except BusError Answer)) : Prop :=
  (∃ d : Decision, code = (locked d.submit).run) ∨
    ∃ caller p ask, code = (finishReply caller p ask).run

def Request.Writes : Request → Prop
  | .send _ _ | .ask _ _ | .broadcast _ _ | .reply _ _ => True
  | _ => False

/-- No section of the handler writes to the tables. -/
abbrev Clean (h : Handler α) : Prop := h.run.Apart (fun _ => False) SameTables

abbrev WritesOnce (h : Handler Answer) : Prop := h.run.Apart Writing SameTables

omit [Platform] in
theorem Clean.locked {m : Act α} (clean : ∀ w, SameTables w (m.exec w).2) :
    Clean (Crewd.locked m) := by
  apply apart_locked
  intro i w
  have installed : SameTables w (w.install i) := .ofStore rfl
  exact installed.trans (clean (w.install i))

omit [Platform] in
theorem Clean.silent {m : Act α} (silent : Silent m) : Clean (Crewd.locked m) :=
  .locked fun w => .ofStore (silent w).store

omit [Platform] in
theorem Clean.bind {h : Handler α} {f : α → Handler β} (first : Clean h)
    (rest : ∀ a, Clean (f a)) : Clean (h >>= f) := apart_bind first rest

theorem WritesOnce.bind {h : Handler α} {f : α → Handler Answer} (first : Clean h)
    (rest : ∀ a, WritesOnce (f a)) : WritesOnce (h >>= f) := apart_bind first rest

omit [Platform] in
theorem raise_clean (r : Except BusError α) : Clean (raise r) := trivial

omit [Platform] in
theorem audit_clean {kind outcome : String} {messageId fromCell toCell : Option String}
    {detail : Option Json} :
    Clean (Crewd.locked (audit kind messageId fromCell toCell outcome detail) : Handler Unit) := by
  refine .locked fun w => .ofStore ?_
  simp only [audit, append, assertKind]
  split
  · rename_i failed
    split at failed <;> simp_all
  · obtain ⟨w', quiet, _, ⟨_, ran⟩ | ⟨_, text, ran⟩⟩ := nextFault_exec w
    · simp [Action.exec_bind, ran, quiet.store]
    · simp [Action.exec_bind, ran, quiet.store]

omit [Platform] in
theorem refuse_clean {kind caller outcome : String} {target : Option String} {e : BusError} :
    Clean (refuse kind caller target outcome e : Handler α) :=
  Clean.bind audit_clean fun _ => trivial

omit [Platform] in
theorem currentAcl_clean : Clean currentAcl := .silent (.readMemory _)

omit [Platform] in
theorem checkCapability_clean (caller : String) (cap : Capability) :
    Clean (checkCapability caller cap) := .bind currentAcl_clean fun _ => raise_clean _

omit [Platform] in
theorem checkMsgType_clean (caller : String) (msgType : MsgType) :
    Clean (checkMsgType caller msgType) := by
  refine .bind currentAcl_clean fun acl => ?_
  cases msgType <;> exact raise_clean _

omit [Platform] in
theorem checkAttachFiles_clean (caller : String) (fileRefs : List String) :
    Clean (checkAttachFiles caller fileRefs) := by
  unfold checkAttachFiles
  split
  · trivial
  · exact checkCapability_clean _ _

omit [Platform] in
theorem authorizeOutbound_clean (caller target : String) (cap : Capability) (via : ReachVia) :
    Clean (authorizeOutbound caller target cap via) := by
  refine .bind currentAcl_clean fun acl => .bind (raise_clean _) fun _ => ?_
  split
  · split
    · trivial
    · exact refuse_clean
  · trivial

omit [Platform] in
theorem enforceQuota_clean (caller : String) (target : Option String)
    (f : QuotaTracker → Except BusError Unit × QuotaTracker) :
    Clean (enforceQuota caller target f) := by
  refine .bind (.locked fun w => .ofStore rfl) fun r => ?_
  cases r with
  | ok u => trivial
  | error e => exact refuse_clean

omit [Platform] in
theorem admitOutbound_clean (caller target : String) (cap : Capability) (units : Nat) :
    Clean (admitOutbound caller target cap units) := by
  refine .bind (.silent (.query _)) fun _ => .bind (enforceQuota_clean _ _ _) fun _ =>
    .bind (.silent .nowMs) fun _ => .bind (enforceQuota_clean _ _ _) fun _ => ?_
  exact enforceQuota_clean _ _ _

omit [Platform] in
theorem afterReply_clean (caller : String) (p : ReplyParams) (ask : AskRow)
    (a : ReplyOutcome × String) : Clean (afterReply caller p ask a) := by
  obtain ⟨outcome, messageId⟩ := a
  cases outcome with
  | recorded =>
    refine .bind (.locked fun w => .ofStore ?_) fun _ => trivial
    simp only [notifyAsker, Action.exec_step]
    split <;> rfl
  | duplicateIdentical messageId => trivial
  | conflict => exact refuse_clean

theorem replying_writes_once (caller : String) (p : ReplyParams) (ask : AskRow) :
    WritesOnce (finishReply caller p ask) := by
  refine ⟨.inl (.inr ⟨caller, p, ask, rfl⟩), fun i w => ?_⟩
  change Process.Apart _ _ (ExceptT.bindCont (afterReply caller p ask)
    ((submitReply caller p ask).exec (w.install i)).1)
  cases ((submitReply caller p ask).exec (w.install i)).1 with
  | ok a => exact (afterReply_clean caller p ask a).allow
  | error e => trivial

/-- Each writing handler writes in one section. -/
theorem handle_writes_once (task : Nat) (request : Request) (writes : request.Writes) :
    WritesOnce (handle task request) := by
  cases request with
  | send caller params =>
    refine .bind (raise_clean _) fun _ => .bind (raise_clean _) fun p => .bind (checkMsgType_clean _ _)
      fun _ => .bind (authorizeOutbound_clean _ _ _ _) fun _ => .bind (raise_clean _) fun _ =>
      .bind (raise_clean _) fun _ => .bind (checkAttachFiles_clean _ _) fun _ =>
      .bind (admitOutbound_clean _ _ _ _) fun _ => ?_
    exact ⟨.inl (.inl ⟨.send caller p, rfl⟩), fun _ _ => trivial⟩
  | ask caller params =>
    refine .bind (raise_clean _) fun _ => .bind (raise_clean _) fun p =>
      .bind (authorizeOutbound_clean _ _ _ _) fun _ => .bind (raise_clean _) fun _ =>
      .bind (raise_clean _) fun _ => .bind (checkAttachFiles_clean _ _) fun _ =>
      .bind (admitOutbound_clean _ _ _ _) fun _ => .bind (.silent (.query _)) fun _ =>
      .bind (enforceQuota_clean _ _ _) fun _ => ?_
    exact ⟨.inl (.inl ⟨.ask caller p, rfl⟩), fun _ _ => trivial⟩
  | broadcast caller params =>
    refine .bind (raise_clean _) fun _ => .bind (raise_clean _) fun p => .bind (checkMsgType_clean _ _)
      fun _ => .bind (raise_clean _) fun _ => .bind (raise_clean _) fun _ =>
      .bind (checkAttachFiles_clean _ _) fun _ => .bind currentAcl_clean fun acl =>
      .bind (raise_clean _) fun _ => .bind (.silent .nowMs) fun _ =>
      .bind (enforceQuota_clean _ _ _) fun _ => .bind (enforceQuota_clean _ _ _) fun _ => ?_
    exact ⟨.inl (.inl ⟨.broadcast caller p acl, rfl⟩), fun _ _ => trivial⟩
  | reply caller params =>
    refine .bind (raise_clean _) fun _ => .bind (raise_clean _) fun p => .bind (raise_clean _) fun _ =>
      .bind (raise_clean _) fun _ => .bind (checkAttachFiles_clean _ _) fun _ =>
      .bind (checkCapability_clean _ _) fun _ => .bind (.silent ?_) fun ask => ?_
    · refine .bind (.query _) fun row => ?_
      cases row with
      | none => exact .throw _
      | some ask => exact .pure _
    · split
      · trivial
      · exact replying_writes_once caller p ask
  | await _ _ | inbox _ _ | reportToolCorrelation _ _ | opStatus _ _ => exact absurd writes id

end Threads

section Moves
variable [Platform]

/-- The call's writing section is about to stop between two of its writes. -/
inductive Torn (task : Nat) (i : Input Outside) (b : BusConfig) : Prop
  | submission (d : Decision) : b.pool[task]? = some (request, some (locked d.submit).run) →
      d.bound b.shared = none → Faultless d.safe (b.shared.install i) →
      ¬ Faultless d.statements (b.shared.install i) → Torn task i b
  | reply : b.pool[task]? = some (request, some (finishReply caller p ask).run) →
      Open b.shared p.askId → Faultless 9 (b.shared.install i) →
      ¬ Faultless 10 (b.shared.install i) → Torn task i b

/-- A submission whose section fails. -/
theorem Decision.failed_same_iff (d : Decision) (inv : Inv w)
    (ran : d.submit.exec w = (.error e, w')) : SameTables w w' ↔
      ¬ (d.bound w = none ∧ Faultless d.safe w ∧ ¬ Faultless d.statements w) := by
  cases bound : d.bound w with
  | none =>
    rw [(d.submit_tears inv bound).same_iff (fun _ changed => changed) rfl ran]
    simp
  | some row =>
    have same := d.submit_bound bound
    rw [ran] at same
    simp [same]

/-- A reply that does not come to be recorded. -/
theorem reply_failed_same_iff (inv : Inv w) (ran : (submitReply caller p ask).exec w = (r, w'))
    (failed : ∀ m, r ≠ .ok (.recorded, m)) : SameTables w w' ↔
      ¬ (Open w p.askId ∧ Faultless 9 w ∧ ¬ Faultless 10 w) := by
  by_cases opened : Open w p.askId
  · have tears : Tears 9 10 (· = w) (submitReply caller p ask) _ _ _ := submitReply_open inv opened
    cases r with
    | error e =>
      rw [tears.same_iff (fun _ changed => changed) rfl ran]
      simp [opened]
    | ok a => exact absurd (by rw [← (tears.answers rfl ran).recorded.mpr opened]) (failed a.2)
  · have tears : Tears 6 6 (· = w) (submitReply caller p ask) _ _ _ := submitReply_settled inv opened
    simp only [opened, false_and, not_false_eq_true, iff_true]
    cases r with
    | error e => exact (tears.same_iff (fun _ changed => changed) rfl ran).mpr (by simp)
    | ok a =>
      have replied := tears.answers rfl ran
      exact replied.same fun recorded => opened (replied.recorded.mp recorded)

/-- A reply that does not fail. -/
theorem reply_answers (inv : Inv w) (ran : (submitReply caller p ask).exec w = (.ok a, w')) :
    ReplyWritten w p ask a w' := by
  by_cases opened : Open w p.askId
  · exact (submitReply_open inv opened).answers rfl ran
  · exact (submitReply_settled inv opened).answers rfl ran

omit [Platform] in
/-- After a reply is recorded the call can only succeed. -/
theorem recorded_succeeds (caller : String) (p : ReplyParams) (ask : AskRow) (m : String) :
    (afterReply caller p ask (.recorded, m)).run.Decides (fun _ => False)
      fun r => r = .ok (.recorded m) :=
  .inr fun _ _ => rfl

/-- The section of a submission that the call answers with an error. -/
private theorem submission_iff {code' : Process World (Input Outside) (Except BusError Answer)}
    {e : BusError} (d : Decision) (good : Good w)
    (ran : (locked d.submit).run.step i w = some (code', t))
    (becomes : code'.Becomes (.done (.error e))) : SameTables w t ↔
      ¬ (d.bound w = none ∧ Faultless d.safe (w.install i) ∧
        ¬ Faultless d.statements (w.install i)) := by
  cases ran
  have installed : Good (w.install i) := good_unread w _ (w.quiet_install i) good
  have ended := becomes.of_done
  simp only [Process.done.injEq] at ended
  exact sameTables_install.symm.trans (d.failed_same_iff installed.inv (Prod.ext ended.symm rfl))

/-- The section of a reply that the call answers with an error in the end. -/
private theorem reply_iff {code' : Process World (Input Outside) (Except BusError Answer)}
    {e : BusError} (good : Good w) (ran : (finishReply caller p ask).run.step i w = some (code', t))
    (becomes : code'.Becomes (.done (.error e))) : SameTables w t ↔
      ¬ (Open w p.askId ∧ Faultless 9 (w.install i) ∧ ¬ Faultless 10 (w.install i)) := by
  cases ran
  have installed : Good (w.install i) := good_unread w _ (w.quiet_install i) good
  have apart : (∀ m, ((submitReply caller p ask).exec (w.install i)).1 ≠ .ok (.recorded, m)) →
      (SameTables (w.install i) ((submitReply caller p ask).exec (w.install i)).2 ↔ _) :=
    reply_failed_same_iff installed.inv rfl
  refine sameTables_install.symm.trans (apart fun m recorded => ?_)
  change (ExceptT.bindCont (afterReply caller p ask)
    ((submitReply caller p ask).exec (w.install i)).1).Becomes _ at becomes
  rw [recorded] at becomes
  have same := (recorded_succeeds caller p ask m).becomes becomes
  cases same

/-- The section of a reply that the call answers with no error in the end. -/
private theorem reply_acknowledged
    {code' : Process World (Input Outside) (Except BusError Answer)} {a : Answer} (good : Good w)
    (ran : (finishReply caller p ask).run.step i w = some (code', t))
    (becomes : code'.Becomes (.done (.ok a))) :
    (Open w p.askId → ∃ m, a = .recorded m ∧ Delivered w [freshDelivery m ask.fromCell] t) ∧
      (¬ Open w p.askId → SameTables w t) := by
  cases ran
  have installed : Good (w.install i) := good_unread w _ (w.quiet_install i) good
  change (ExceptT.bindCont (afterReply caller p ask)
    ((submitReply caller p ask).exec (w.install i)).1).Becomes _ at becomes
  cases outcome : ((submitReply caller p ask).exec (w.install i)).1 with
  | error e =>
    rw [outcome] at becomes
    cases becomes.of_done
  | ok reply =>
    have replied := reply_answers installed.inv (Prod.ext outcome rfl)
    obtain ⟨o, m⟩ := reply
    constructor
    · intro opened
      obtain rfl : o = .recorded := replied.recorded.mpr opened
      rw [outcome] at becomes
      have same := (recorded_succeeds caller p ask m).becomes becomes
      exact ⟨m, Except.ok.inj same, replied.adds rfl⟩
    · intro settled
      exact sameTables_install.mp (replied.same fun recorded =>
        settled (replied.recorded.mp recorded))

/-- The move of a call that ends with an error leaves the tables exactly when it does
not stop between two of its writes. -/
theorem failing_move_iff {b b' c : BusConfig} {e : BusError} (good : Good b.shared)
    (writes : ∀ request code, b.pool[task]? = some (request, some code) →
      code.Apart Writing SameTables)
    (moved : service.next b (.run task i) = some b') (later : service.Leads b' c)
    (failed : c.pool[task]? = some (request, some (.done (.error e)))) :
    SameTables b.shared b'.shared ↔ ¬ Torn task i b := by
  obtain ⟨request', code, code', found, ran, found'⟩ := System.run_next moved
  obtain ⟨rfl, becomes⟩ := System.task_becomes later found' failed
  constructor
  · rintro same (⟨d, here, unbound, clear, faulty⟩ | ⟨here, opened, clear, faulty⟩)
    · cases found.symm.trans here
      exact (submission_iff d good ran becomes).mp same ⟨unbound, clear, faulty⟩
    · cases found.symm.trans here
      exact (reply_iff good ran becomes).mp same ⟨opened, clear, faulty⟩
  · intro whole
    cases code with
    | done a => simp [Process.step] at ran
    | atomic ready act next =>
      rcases (writes _ _ found).1 with (⟨d, same⟩ | ⟨caller, p, ask, same⟩) | clean
      · rw [same] at ran found
        apply (submission_iff d good ran becomes).mpr
        rintro ⟨unbound, clear, faulty⟩
        exact whole (.submission d found unbound clear faulty)
      · rw [same] at ran found
        apply (reply_iff good ran becomes).mpr
        rintro ⟨opened, clear, faulty⟩
        exact whole (.reply found opened clear faulty)
      · obtain ⟨_, _, _, _, same, _, moves⟩ := (Process.Becomes.refl _).step ran
        cases same
        rw [moves]
        exact clean i b.shared

end Moves

/-- A move of the task in a run. -/
structure MoveOf [Platform] (w : World) (moves : List (Move (Input Outside) Request Event))
    (task : Nat) (i : Input Outside) (b b' : BusConfig) : Prop where
  place : ∃ before after, moves = before ++ .run task i :: after ∧
    service.runs (System.dormant w) before = some b
  moved : service.next b (.run task i) = some b'

theorem MoveOf.around [Platform] {w : World} {c : BusConfig} (move : MoveOf w moves task i b b')
    (ran : service.runs (System.dormant w) moves = some c) :
    service.Reaches w b ∧ service.Leads b' c := by
  obtain ⟨before, after, rfl, reached⟩ := move.place
  rw [System.runs_append, reached, Option.bind_some, System.runs, move.moved] at ran
  exact ⟨System.leads_of_runs _ reached, System.leads_of_runs _ ran⟩

/-- The moves of a call that returns an error leave the deliveries, asks and bindings as
they were exactly when none of them stops between two writes. A submission that is
acknowledged adds one delivery for each recipient when its key is unbound, a reply one for
the asker when the ask is open; else nothing is added. -/
theorem failures_clean_iff [Platform] {w : World} {c : BusConfig}
    {moves : List (Move (Input Outside) Request Event)} (blank : Blank w)
    (ran : service.runs (System.dormant w) moves = some c) :
    (∀ task request e, request.Writes → c.pool[task]? = some (request, some (.done (.error e))) →
      ((∀ i b b', MoveOf w moves task i b b' → SameTables b.shared b'.shared) ↔
        ∀ i b b', MoveOf w moves task i b b' → ¬ Torn task i b)) ∧
    (∀ task request (d : Decision) i b b' a,
      b.pool[task]? = some (request, some (locked d.submit).run) →
      MoveOf w moves task i b b' → b'.answer task = some (.ok a) →
      if d.bound b.shared = none then d.Adds b.shared a b'.shared
      else SameTables b.shared b'.shared) ∧
    ∀ task request caller p ask i b b' a,
      b.pool[task]? = some (request, some (finishReply caller p ask).run) →
      MoveOf w moves task i b b' → c.answer task = some (.ok a) →
      (Open b.shared p.askId →
        ∃ m, a = .recorded m ∧ Delivered b.shared [freshDelivery m ask.fromCell] b'.shared) ∧
      (¬ Open b.shared p.askId → SameTables b.shared b'.shared) := by
  refine ⟨?_, ?_, ?_⟩
  · intro task request e writes failed
    have each : ∀ i b b', MoveOf w moves task i b b' →
        (SameTables b.shared b'.shared ↔ ¬ Torn task i b) := by
      intro i b b' move
      obtain ⟨reached, later⟩ := move.around ran
      refine failing_move_iff (good_reachable blank reached) (fun request' code found => ?_)
        move.moved later failed
      obtain ⟨same, _⟩ := System.task_becomes ((System.Leads.refl b).next move.moved |>.trans _ later)
        found failed
      subst same
      exact (handle_writes_once task _ writes).becomes (System.program_becomes reached found)
    constructor
    · exact fun kept i b b' move => (each i b b' move).mp (kept i b b' move)
    · exact fun whole i b b' move => (each i b b' move).mpr (whole i b b' move)
  · intro task request d i b b' a found move answered
    obtain ⟨reached, _⟩ := move.around ran
    obtain ⟨answer, shared⟩ := decided_move found move.moved
    have good := good_unread _ _ (b.shared.quiet_install i) (good_reachable blank reached)
    have succeeded : (d.submit.exec (b.shared.install i)).1 = .ok a :=
      Option.some.inj (answer.symm.trans answered)
    rw [shared]
    split
    · rename_i unbound
      exact (d.submit_tears good.inv unbound).answers rfl (Prod.ext succeeded rfl)
    · rename_i bound
      obtain ⟨row, found⟩ := Option.ne_none_iff_exists'.mp bound
      exact sameTables_install.mp (d.submit_bound found)
  · intro task request caller p ask i b b' a found move answered
    obtain ⟨reached, later⟩ := move.around ran
    obtain ⟨request', finished⟩ := Config.answer_eq_some.mp answered
    obtain ⟨_, code, code', here, stepped, found'⟩ := System.run_next move.moved
    cases found.symm.trans here
    exact reply_acknowledged (good_reachable blank reached) stepped
      (System.task_becomes later found' finished).2

section Sample

/-- The statement that binds the key of a send fails. -/
def bindingFails (secs : Nat) : Input Outside :=
  { moment secs with faults := List.replicate 9 none ++ [some "disk I/O error"] }

/-- A call of `cell_send` up to its writing section. -/
def sendingUpTo (task : Nat) (caller toCell key : String) (secs : Nat) :
    List (Move (Input Outside) Request Event) :=
  (sending task caller toCell key secs).dropLast

/-- A send whose last statement fails. -/
def tornSend : List (Move (Input Outside) Request Event) :=
  startWith sampleStart :: (sendingUpTo 0 "coder" "reviewer" "k1" 1783242000 ++
    [.run 0 (bindingFails 1783242000)])

def Request.isSend : Request → Bool
  | .send _ _ => true
  | _ => false

theorem failures_clean_iff_torn : ∃ c request e, sampleService.Reaches blankWorld c ∧
    c.pool[0]? = some (request, some (.done (.error e))) ∧
    ((∀ i b b', @MoveOf .sample blankWorld tornSend 0 i b b' → SameTables b.shared b'.shared) ↔
      ∀ i b b', @MoveOf .sample blankWorld tornSend 0 i b b' → ¬ @Torn .sample 0 i b) := by
  let _ := Platform.sample
  have ran : (sampleService.runs (System.dormant blankWorld) tornSend).map (fun c =>
      decide ((c.pool[0]?.map fun task => task.1.isSend) = some true ∧
        c.answer 0 = some (.error (.internal "disk I/O error")))) = some true := by
    decide +kernel
  obtain ⟨c, run, facts⟩ := Option.map_eq_some_iff.mp ran
  obtain ⟨sends, answer⟩ := of_decide_eq_true facts
  obtain ⟨request, finished⟩ := Config.answer_eq_some.mp answer
  have writes : request.Writes := by
    rw [finished] at sends
    cases request <;> first | trivial | simp [Request.isSend] at sends
  exact ⟨c, request, _, System.leads_of_runs _ run, finished,
    (failures_clean_iff blankWorld_blank run).1 0 request _ writes finished⟩

/-- The call fails and its delivery stays; a retry under the same key delivers the same
text to the reviewer a second time. -/
theorem failed_send_delivers_twice : ∃ b b' c, sampleService.Reaches blankWorld b ∧
    sampleService.next b (.run 0 (bindingFails 1783242000)) = some b' ∧
    b'.answer 0 = some (.error (.internal "disk I/O error")) ∧
    b.shared.store.deliveries = [] ∧ ¬ SameTables b.shared b'.shared ∧
    b'.shared.store.dedupe = [] ∧ sampleService.Leads b' c ∧
    c.answer 1 = some (.ok (.enqueued "0197d8a0-0000-7000-8000-000000000001")) ∧
    c.shared.store.deliveries.map (·.recipient) = ["reviewer", "reviewer"] ∧
    c.shared.store.envelopes.map (·.body) = ["ping", "ping"] := by
  have ran : ((sampleService.runs (System.dormant blankWorld) (startWith sampleStart ::
      sendingUpTo 0 "coder" "reviewer" "k1" 1783242000)).bind fun b =>
      (sampleService.next b (.run 0 (bindingFails 1783242000))).bind fun b' =>
        (sampleService.runs b' (sending 1 "coder" "reviewer" "k1" 1783242010)).map fun c => decide (
          b'.answer 0 = some (.error (.internal "disk I/O error")) ∧
          b.shared.store.deliveries = [] ∧ b'.shared.store.deliveries ≠ [] ∧
          b'.shared.store.dedupe = [] ∧
          c.answer 1 = some (.ok (.enqueued "0197d8a0-0000-7000-8000-000000000001")) ∧
          c.shared.store.deliveries.map (·.recipient) = ["reviewer", "reviewer"] ∧
          c.shared.store.envelopes.map (·.body) = ["ping", "ping"])) = some true := by
    decide +kernel
  obtain ⟨b, reached, ran⟩ := Option.bind_eq_some_iff.mp ran
  obtain ⟨b', moved, ran⟩ := Option.bind_eq_some_iff.mp ran
  obtain ⟨c, later, facts⟩ := Option.map_eq_some_iff.mp ran
  obtain ⟨failed, none, some, unbound, answered, twice, bodies⟩ := of_decide_eq_true facts
  refine ⟨b, b', c, System.leads_of_runs _ reached, moved, failed, none, fun same => ?_, unbound,
    System.leads_of_runs _ later, answered, twice, bodies⟩
  exact some (same.deliveries.trans none)

end Sample

end Crewd.Bus
