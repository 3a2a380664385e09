import Crewd.Bus.Soundness

/-! Leases over any sequence of store operations. What an operation does to the delivery
rows is described row by row, so a claimed row keeps its lease through every operation
but those that make its delivery due again. -/
namespace Crewd.Bus
open Autocommit Table

/-- The operations on the message tables with their arguments. -/
inductive StoreOp where
  | nextSeq (fromCell toCell : String)
  | insertEnvelope (env : Envelope)
  | getEnvelope (messageId : String)
  | insertDelivery (messageId recipient : String)
  | pendingDeliveriesCount (recipient : String)
  | pendingDeliveriesTotal
  | deliveryState (messageId recipient : String)
  | transition (messageId recipient : String) (target : DeliveryState)
  | claimDue (nowUnix leaseSecs : Int) (max : Nat)
  | recordAttemptFailure (messageId recipient : String) (maxAttempts base cap : Nat)
  | expireDue (nowRfc3339 : String)
  | inbox (recipient : String) (limit : Nat)
  | dedupeLookup (fromCell key : String)
  | dedupeInsert (fromCell key messageId : String) (askId : Option String) (bodySha256 : String)
  | insertAsk (askId messageId fromCell toCell expiresAt : String)
  | getAsk (askId : String)
  | replyPrecheck (askId : String) (reply : Envelope)
  | commitReply (askId : String) (reply : Envelope)
  | recordReply (askId : String) (reply : Envelope)
  | pendingAsksCount (requester : String)
  | openAsksWhereResponder (cell : String)
  | openAsksTotal
  | expireAsksDue (nowRfc3339 : String)

/-- One operation; what it answers does not matter to the operations after it. -/
def StoreOp.run [Platform] : StoreOp → Act Unit
  | .nextSeq s r => Action.ignore (Bus.nextSeq s r)
  | .insertEnvelope env => Bus.insertEnvelope env
  | .getEnvelope m => Action.ignore (Bus.getEnvelope m)
  | .insertDelivery m r => Bus.insertDelivery m r
  | .pendingDeliveriesCount r => Action.ignore (Bus.pendingDeliveriesCount r)
  | .pendingDeliveriesTotal => Action.ignore Bus.pendingDeliveriesTotal
  | .deliveryState m r => Action.ignore (Bus.deliveryState m r)
  | .transition m r target => Bus.transition m r target
  | .claimDue now lease max => Action.ignore (Bus.claimDue now lease max)
  | .recordAttemptFailure m r maxAttempts base cap =>
    Action.ignore (Bus.recordAttemptFailure m r maxAttempts base cap)
  | .expireDue now => Action.ignore (Bus.expireDue now)
  | .inbox r limit => Action.ignore (Bus.inbox r limit)
  | .dedupeLookup s key => Action.ignore (Bus.dedupeLookup s key)
  | .dedupeInsert s key m askId hash => Bus.dedupeInsert s key m askId hash
  | .insertAsk askId m s r expiresAt => Bus.insertAsk askId m s r expiresAt
  | .getAsk askId => Action.ignore (Bus.getAsk askId)
  | .replyPrecheck askId reply => Action.ignore (Bus.replyPrecheck askId reply)
  | .commitReply askId reply => Bus.commitReply askId reply
  | .recordReply askId reply => Action.ignore (Bus.recordReplyAtOnce askId reply)
  | .pendingAsksCount s => Action.ignore (Bus.pendingAsksCount s)
  | .openAsksWhereResponder cell => Action.ignore (Bus.openAsksWhereResponder cell)
  | .openAsksTotal => Action.ignore Bus.openAsksTotal
  | .expireAsksDue now => Action.ignore (Bus.expireAsksDue now)

/-- Operations one after another, each with its own clock and failing statements. -/
def perform [Platform] (w : World) : List (StoreOp × Input Outside) → World
  | [] => w
  | (op, i) :: later => perform (op.run.exec (w.install i)).2 later

section Rows

/-- No key twice, and every row as the predicate says. -/
structure RowsOf (G : Delivery → Prop) (rows : List Delivery) : Prop where
  once : (rows.map fun d => (d.envelopeId, d.recipient)).Nodup
  each : ∀ d ∈ rows, G d

variable {G : Delivery → Prop} {rows : List Delivery}

theorem RowsOf.updated {p : Delivery → Bool} {f : Delivery → Delivery} (rowsOf : RowsOf G rows)
    (keeps : ∀ d, (f d).envelopeId = d.envelopeId ∧ (f d).recipient = d.recipient)
    (each : ∀ d ∈ rows, p d = true → G (f d)) : RowsOf G (updateWhere p f rows) := by
  constructor
  · have same : (updateWhere p f rows).map (fun d => (d.envelopeId, d.recipient)) =
        rows.map fun d => (d.envelopeId, d.recipient) :=
      map_updateWhere fun d _ _ => by rw [(keeps d).1, (keeps d).2]
    rw [same]
    exact rowsOf.once
  · intro d member
    obtain ⟨old, stored, rfl⟩ := mem_updateWhere.mp member
    split
    · exact each old stored ‹_›
    · exact rowsOf.each old stored

theorem RowsOf.inserted (rowsOf : RowsOf G rows) (new : G d) :
    RowsOf G (replaceInto (·.is d.envelopeId d.recipient) d rows) := by
  constructor
  · rw [replaceInto, List.map_append]
    refine List.nodup_append.mpr ⟨rowsOf.once.sublist (List.filter_sublist.map _), by simp, ?_⟩
    rintro key member other here rfl
    obtain ⟨e, kept, rfl⟩ := List.mem_map.mp member
    simp only [List.map_cons, List.map_nil, List.mem_singleton, Prod.mk.injEq] at here
    have apart := (List.mem_filter.mp kept).2
    rw [delivery_is_iff.mpr here] at apart
    cases apart
  · intro e member
    rcases mem_replaceInto.mp member with ⟨old, _⟩ | rfl
    · exact rowsOf.each e old
    · exact new

end Rows

section Operations
variable {G : Delivery → Prop} {α β : Type}

def Rows (G : Delivery → Prop) (w : World) : Prop := RowsOf G w.store.deliveries

def Keep (G : Delivery → Prop) (w w' : World) : Prop := Rows G w → Rows G w'

/-- Whatever fails, the rows are as the predicate says afterwards. -/
abbrev Preserves (G : Delivery → Prop) (m : Act α) : Prop :=
  Meets (Keep G) (Rows G) m (fun _ => Rows G)

theorem rows_unread : Unread (Rows G) := by
  intro w w' quiet rows
  rw [Rows, quiet.store]
  exact rows

theorem keep_quiet (w w' : World) (quiet : World.Quiet w w') : Keep G w w' :=
  rows_unread w w' quiet

theorem Preserves.after {m : Act α} (preserves : Preserves G m) (rows : Rows G w) :
    Rows G (m.exec w).2 := by
  have path := (preserves w rows).1
  generalize (m.exec w).2 = w' at path
  induction path with
  | refl => exact rows
  | tail _ last ih => exact last ih

theorem preserves_silent {m : Act α} (silent : Silent m) : Preserves G m :=
  silent_keeps keep_quiet silent rows_unread

theorem preserves_ignore {m : Act α} (preserves : Preserves G m) : Preserves G (Action.ignore m) := by
  refine Meets.ignore preserves fun w w' rows path => ?_
  induction path with
  | refl => exact rows
  | tail _ last ih => exact last ih

/-- An update of other tables. -/
theorem preserves_execute {f : Store → Store} (apart : ∀ st, (f st).deliveries = st.deliveries) :
    Preserves G (execute f) := by
  have kept : ∀ w : World, Rows G w → Rows G { w with store := f w.store } := by
    intro w rows
    simpa only [Rows, apart] using rows
  exact (preserves_silent .mayFail).bind fun _ => Meets.step (fun w _ => kept w) kept

theorem preserves_transaction {body : Act α} (preserves : Preserves G body) :
    Preserves G (transaction body) := by
  refine (preserves_silent .mayFail).bind fun _ w rows => ?_
  have whole : Preserves G (committing body) := preserves.bind fun a =>
    (preserves_silent .mayFail).bind fun _ => Meets.pure fun _ rows => rows
  have kept := whole.after rows
  simp only [atomically, Action.exec_mk]
  cases run : (committing body).exec w with
  | mk result w' =>
    rw [run] at kept
    cases result with
    | ok a => exact ⟨.single fun _ => kept, fun _ _ => kept⟩
    | error e => exact ⟨.single fun before => before, fun _ failed => by cases failed⟩

theorem preserves_move {cause : Cause} {p : Delivery → Bool} {f : Delivery → Delivery}
    {P : World → Prop} (unread : Unread P) (rows : ∀ w, P w → Rows G w)
    (keeps : ∀ d, (f d).envelopeId = d.envelopeId ∧ (f d).recipient = d.recipient)
    (each : ∀ w, P w → ∀ d ∈ w.store.deliveries, p d = true → G (f d)) :
    Meets (Keep G) P (moveDeliveries cause p f) (fun _ => Rows G) := by
  have moved : ∀ w, P w → Rows G (moveRows cause p f w) := fun w holds =>
    (rows w holds).updated keeps (each w holds)
  exact moveDeliveries_meets keep_quiet unread (fun w holds _ => moved w holds) moved

theorem preserves_settle {askId : String} {reply : Option String} {f : Ask → Ask} :
    Preserves G (settleAsk askId reply f) :=
  (preserves_silent .mayFail).bind fun _ => Meets.step (fun _ _ rows => rows) fun _ rows => rows

theorem insertDelivery_preserves (new : G ⟨messageId, recipient, .queued, 0, none, 0⟩) :
    Preserves G (insertDelivery messageId recipient) := by
  have kept : ∀ w : World, Rows G w → Rows G (insertDeliveryRow messageId recipient w) :=
    fun w rows => RowsOf.inserted rows new
  exact (preserves_silent .mayFail).bind fun _ => Meets.step (fun w _ => kept w) kept

theorem transition_preserves {target : DeliveryState} (each : ∀ d, d.is messageId recipient = true →
    transitionAllowed d.state target = true → G d → G { d with state := target }) :
    Preserves G (transition messageId recipient target) := by
  refine (deliveryState_meets keep_quiet rows_unread _ _).bind fun state => ?_
  split
  · rename_i allowed
    apply preserves_move
    · intro w w' quiet ⟨rows, d, found, same⟩
      exact ⟨rows_unread w w' quiet rows, d, by rw [quiet.store]; exact found, same⟩
    · exact fun w holds => holds.1
    · exact fun d => ⟨rfl, rfl⟩
    · intro w ⟨rows, d, found, same⟩ e member hit
      have only := found_unique rows.once found member hit
      exact each e hit (by rw [only, ← same]; exact allowed) (rows.each e member)
  · exact Meets.throw

theorem recordAttemptFailure_preserves {maxAttempts base cap : Nat}
    (failed : ∀ d attempts, d.is messageId recipient = true → G d →
      G { d with state := .failed, attempts := attempts })
    (retried : ∀ d attempts retryAt, d.is messageId recipient = true → G d →
      G { d with state := .queued, attempts := attempts, leaseUntil := none, nextRetryAt := retryAt }) :
    Preserves G (recordAttemptFailure messageId recipient maxAttempts base cap) := by
  refine (preserves_silent .nowUnix).bind fun now => ?_
  refine (preserves_silent (.query _)).bind fun row => ?_
  cases row with
  | none => exact Meets.throw
  | some row =>
    simp only
    split
    · refine Meets.bind (Q := fun _ => Rows G) ?_ fun _ => Meets.pure fun _ rows => rows
      exact preserves_move rows_unread (fun _ rows => rows) (fun d => ⟨rfl, rfl⟩)
        fun w rows d member hit => failed d _ hit (rows.each d member)
    · refine (preserves_silent (.readOutside _)).bind fun jitter => ?_
      refine Meets.bind (Q := fun _ => Rows G) ?_ fun _ => Meets.pure fun _ rows => rows
      exact preserves_move rows_unread (fun _ rows => rows) (fun d => ⟨rfl, rfl⟩)
        fun w rows d member hit => retried d _ _ hit (rows.each d member)

theorem expireDue_preserves (expired : ∀ d, G d → G { d with state := .expired }) (now : String) :
    Preserves G (expireDue now) := by
  refine (preserves_silent (.query _)).bind fun found => ?_
  refine Meets.bind (Q := fun _ => Rows G) (Meets.forM fun row _ => ?_) fun _ => ?_
  · refine (preserves_silent .mayFail).bind fun _ => ?_
    split
    · exact preserves_move rows_unread (fun _ rows => rows) (fun d => ⟨rfl, rfl⟩)
        fun w rows d member _ => expired d (rows.each d member)
    · exact Meets.pure fun _ rows => rows
  · refine Meets.bind (Q := fun _ => Rows G) (Meets.step (fun _ _ rows => rows) fun _ rows => rows)
      fun _ => Meets.pure fun _ rows => rows

theorem inbox_preserves (pulled : ∀ d, G d → G { d with state := .delivered, leaseUntil := none })
    (recipient : String) (limit : Nat) : Preserves G (inbox recipient limit) := by
  have noted : ∀ passage : World → Passage, Preserves G (note passage) := fun passage =>
    Meets.step (fun _ _ rows => rows) fun _ rows => rows
  refine (preserves_silent (.query _)).bind fun found => (noted _).bind fun _ => ?_
  refine Meets.bind (Q := fun _ => Rows G) (Meets.forM fun env _ => ?_) fun _ =>
    (noted _).bind fun _ => Meets.pure fun _ rows => rows
  exact preserves_move rows_unread (fun _ rows => rows) (fun d => ⟨rfl, rfl⟩)
    fun w rows d member _ => pulled d (rows.each d member)

section Claims
variable {now lease : Int} {rows : List (Delivery × Envelope)}

/-- The rows under these keys are claimed until the lease runs out. -/
structure Marked (G : Delivery → Prop) (lease : Int) (done : List (Delivery × Envelope)) (w : World) :
    Prop where
  rows : Rows G w
  leased : ∀ row ∈ done, ∀ d ∈ w.store.deliveries, d.is row.2.messageId row.1.recipient = true →
    d.state = .claimed ∧ d.leaseUntil = some lease

theorem marked_unread {done : List (Delivery × Envelope)} : Unread (Marked G lease done) := by
  intro w w' quiet marked
  refine ⟨rows_unread w w' quiet marked.rows, ?_⟩
  rw [quiet.store]
  exact marked.leased

/-- One turn of the loop over the due rows. -/
theorem Marked.more {done : List (Delivery × Envelope)} {row : Delivery × Envelope} {w : World}
    (marked : Marked G lease done w)
    (claims : ∀ d : Delivery, d.is row.2.messageId row.1.recipient = true →
      G { d with state := .claimed, leaseUntil := some lease }) :
    Marked G lease (done ++ [row]) (moveRows .claimed (·.is row.2.messageId row.1.recipient)
      (fun d => { d with state := .claimed, leaseUntil := some lease }) w) := by
  refine ⟨marked.rows.updated (fun _ => ⟨rfl, rfl⟩) fun d _ hit => claims d hit, ?_⟩
  intro other member d stored hit
  obtain ⟨old, before, rfl⟩ := mem_updateWhere.mp stored
  by_cases touched : old.is row.2.messageId row.1.recipient = true
  · rw [if_pos touched]
    exact ⟨rfl, rfl⟩
  · rw [if_neg touched] at hit ⊢
    rcases List.mem_append.mp member with known | last
    · exact marked.leased other known old before hit
    · rw [List.mem_singleton.mp last] at hit
      exact absurd hit touched

theorem claims_meets {done : List (Delivery × Envelope)}
    (claims : ∀ row ∈ rows, ∀ d : Delivery, d.is row.2.messageId row.1.recipient = true →
      G { d with state := .claimed, leaseUntil := some lease }) :
    Meets (Keep G) (Marked G lease done) (rows.forM fun (d, env) => do
        mayFail
        moveDeliveries .claimed (·.is env.messageId d.recipient) fun d =>
          { d with state := .claimed, leaseUntil := some lease })
      (fun _ => Marked G lease (done ++ rows)) := by
  induction rows generalizing done with
  | nil => exact Meets.pure fun w marked => by simpa using marked
  | cons row rest ih =>
    have first := claims row List.mem_cons_self
    refine Meets.bind (Q := fun _ => Marked G lease (done ++ [row])) ?_ fun _ => ?_
    · refine (silent_keeps keep_quiet .mayFail marked_unread).bind fun _ => ?_
      exact moveDeliveries_meets keep_quiet marked_unread
        (fun w marked _ => (marked.more first).rows) fun w marked => marked.more first
    · refine (ih fun other member => claims other (List.mem_cons_of_mem _ member)).weaken
        (fun _ marked => marked) fun _ _ marked => ?_
      rwa [List.append_assoc] at marked

/-- What a claim hands out: due rows, each of them once, and claimed from then on. -/
structure HandedOut (G : Delivery → Prop) (lease : Int) (claimed : List (Envelope × String))
    (w : World) : Prop where
  rows : Rows G w
  once : (claimed.map fun entry => (entry.1.messageId, entry.2)).Nodup
  due : ∀ entry ∈ claimed, ∃ d, d.is entry.1.messageId entry.2 = true ∧ d.state = .queued ∧ G d
  leased : ∀ entry ∈ claimed, ∀ d ∈ w.store.deliveries, d.is entry.1.messageId entry.2 = true →
    d.state = .claimed ∧ d.leaseUntil = some lease

theorem claimDue_hands_out (releases : ∀ d, d.lapsed now = true → G d →
      G { d with state := .queued, leaseUntil := none })
    (claims : ∀ d e : Delivery, d.state = .queued → G d → e.is d.envelopeId d.recipient = true →
      G { e with state := .claimed, leaseUntil := some (now + lease) }) (most : Nat) :
    Meets (Keep G) (Rows G) (claimDue now lease most) (HandedOut G (now + lease)) := by
  refine Meets.bind (Q := fun _ => Rows G) ?_ fun _ => ?_
  · exact preserves_move rows_unread (fun _ rows => rows) (fun _ => ⟨rfl, rfl⟩)
      fun w rows d member lapsed => releases d lapsed (rows.each d member)
  refine Meets.bind (Q := fun _ => Rows G) (Meets.step (fun _ _ rows => rows) fun _ rows => rows)
    fun _ => ?_
  refine (query_meets keep_quiet rows_unread).bind fun found => Meets.given fun w ⟨rows, same⟩ => ?_
  refine ⟨Marked G (now + lease) [], ⟨rows, by simp⟩, ?_⟩
  have picked : ∀ row ∈ found, row.1 ∈ w.store.deliveries ∧ row.1.state = .queued ∧
      row.2.messageId = row.1.envelopeId := by
    intro row member
    rw [same] at member
    have joined := List.mem_of_mem_take member
    obtain ⟨stored, _, due⟩ := mem_joined.mp (show (row.1, row.2) ∈ _ from joined)
    simp only [Delivery.due, Bool.and_eq_true, decide_eq_true_eq] at due
    exact ⟨stored, due.1, joined_key joined⟩
  have distinct : (found.map fun row => (row.2.messageId, row.1.recipient)).Nodup := by
    rw [same]
    exact (joined_once' rows.once).sublist ((List.take_sublist _ _).map _)
  refine Meets.bind (claims_meets fun row member d hit => ?_) fun _ => Meets.pure fun w' marked => ?_
  · obtain ⟨stored, queued, key⟩ := picked row member
    rw [key] at hit
    exact claims row.1 d queued (rows.each _ stored) hit
  · refine ⟨marked.rows, by rwa [List.map_map], ?_, ?_⟩
    · intro entry member
      obtain ⟨row, inside, rfl⟩ := List.mem_map.mp member
      obtain ⟨stored, queued, key⟩ := picked row inside
      exact ⟨row.1, delivery_is_iff.mpr ⟨key.symm, rfl⟩, queued, rows.each _ stored⟩
    · intro entry member
      obtain ⟨row, inside, rfl⟩ := List.mem_map.mp member
      exact marked.leased row (by simpa using inside)

end Claims
end Operations

/-- What an operation does to delivery rows keeps the predicate. -/
def StoreOp.Allows (G : Delivery → Prop) : StoreOp → Prop
  | .insertDelivery m r => G ⟨m, r, .queued, 0, none, 0⟩
  | .transition m r target => ∀ d : Delivery, d.is m r = true →
    transitionAllowed d.state target = true → G d → G { d with state := target }
  | .claimDue now lease _ =>
    (∀ d : Delivery, d.lapsed now = true → G d → G { d with state := .queued, leaseUntil := none }) ∧
    ∀ d e : Delivery, d.state = .queued → G d → e.is d.envelopeId d.recipient = true →
      G { e with state := .claimed, leaseUntil := some (now + lease) }
  | .recordAttemptFailure m r _ _ _ =>
    (∀ (d : Delivery) (attempts : Nat), d.is m r = true → G d →
      G { d with state := .failed, attempts := attempts }) ∧
    ∀ (d : Delivery) (attempts : Nat) (retryAt : Int), d.is m r = true → G d →
      G { d with state := .queued, attempts := attempts, leaseUntil := none, nextRetryAt := retryAt }
  | .expireDue _ => ∀ d : Delivery, G d → G { d with state := .expired }
  | .inbox _ _ => ∀ d : Delivery, G d → G { d with state := .delivered, leaseUntil := none }
  | _ => True

section Runs
variable [Platform] {G : Delivery → Prop}

theorem replyPrecheck_silent (askId : String) (reply : Envelope) :
    Silent (replyPrecheck askId reply) := by
  refine Silent.bind (.query _) fun ask => ?_
  split
  · exact .pure _
  · split
    · split <;> exact .pure _
    · exact .pure _

theorem run_preserves (op : StoreOp) (allows : op.Allows G) : Preserves G op.run := by
  cases op with
  | nextSeq s r =>
    refine preserves_ignore (preserves_transaction ?_)
    refine (preserves_execute fun st => ?_).bind fun _ => ?_
    · unfold Store.withCounter
      split <;> rfl
    · refine (preserves_silent (.query _)).bind fun row => ?_
      cases row with
      | none => exact Meets.throw
      | some row =>
      simp only
      exact Meets.bind (Q := fun _ => Rows G) (preserves_execute fun _ => rfl) fun _ =>
        Meets.pure fun _ rows => rows
  | insertDelivery m r => exact insertDelivery_preserves allows
  | transition m r target => exact transition_preserves allows
  | claimDue now lease most =>
    exact preserves_ignore ((claimDue_hands_out allows.1 allows.2 most).weaken (fun _ rows => rows)
      fun _ _ handed => handed.rows)
  | recordAttemptFailure m r maxAttempts base cap =>
    exact preserves_ignore (recordAttemptFailure_preserves allows.1 allows.2)
  | expireDue now => exact preserves_ignore (expireDue_preserves allows now)
  | inbox r limit => exact preserves_ignore (inbox_preserves allows r limit)
  | deliveryState m r =>
    refine preserves_ignore ((deliveryState_meets keep_quiet rows_unread m r).weaken
      (fun _ rows => rows) fun _ _ holds => holds.1)
  | insertEnvelope env => exact preserves_execute fun _ => rfl
  | insertAsk askId m s r expiresAt => exact preserves_execute fun _ => rfl
  | dedupeInsert s key m askId hash =>
    exact (preserves_silent .nowRfc3339).bind fun _ => preserves_execute fun _ => rfl
  | replyPrecheck askId reply =>
    exact preserves_ignore (preserves_silent (replyPrecheck_silent askId reply))
  | commitReply askId reply => exact preserves_settle
  | recordReply askId reply =>
    refine preserves_ignore ((preserves_silent (replyPrecheck_silent askId reply)).bind fun outcome => ?_)
    cases outcome with
    | recorded => exact preserves_settle.bind fun _ => Meets.pure fun _ rows => rows
    | duplicateIdentical m => exact Meets.pure fun _ rows => rows
    | conflict => exact Meets.pure fun _ rows => rows
  | expireAsksDue now =>
    refine preserves_ignore ((preserves_silent (.query _)).bind fun ids => ?_)
    exact (Meets.forM fun _ _ => preserves_settle).bind fun _ => Meets.pure fun _ rows => rows
  | getEnvelope m => exact preserves_ignore (preserves_silent (.query _))
  | pendingDeliveriesCount r => exact preserves_ignore (preserves_silent (.query _))
  | pendingDeliveriesTotal => exact preserves_ignore (preserves_silent (.query _))
  | dedupeLookup s key => exact preserves_ignore (preserves_silent (.query _))
  | getAsk askId => exact preserves_ignore (preserves_silent (.query _))
  | pendingAsksCount s => exact preserves_ignore (preserves_silent (.query _))
  | openAsksWhereResponder cell => exact preserves_ignore (preserves_silent (.query _))
  | openAsksTotal => exact preserves_ignore (preserves_silent (.query _))

/-- What every operation of a sequence keeps holds after it. -/
theorem perform_preserves {calls : List (StoreOp × Input Outside)}
    (allows : ∀ call ∈ calls, call.1.Allows G) (rows : Rows G w) : Rows G (perform w calls) := by
  induction calls generalizing w with
  | nil => exact rows
  | cons call later ih =>
    obtain ⟨op, i⟩ := call
    have installed : Rows G (w.install i) := rows
    exact ih (fun other member => allows other (List.mem_cons_of_mem _ member))
      ((run_preserves op (allows (op, i) List.mem_cons_self)).after installed)

omit [Platform] in
theorem allows_any (op : StoreOp) : op.Allows (fun _ => True) := by
  cases op <;> simp [StoreOp.Allows]

/-- The rows of a store that was built from nothing have distinct keys. -/
theorem perform_once (empty : w.store = .empty) (calls : List (StoreOp × Input Outside)) :
    Rows (fun _ => True) (perform w calls) := by
  refine perform_preserves (fun call _ => allows_any call.1) ?_
  rw [Rows, empty]
  exact ⟨List.nodup_nil, fun _ _ => trivial⟩

end Runs

section Exclusive

/-- The delivery is not waiting, and where it is claimed its lease runs to this time. -/
def Leased (messageId recipient : String) (deadline : Int) (row : Delivery) : Prop :=
  row.is messageId recipient = true → row.state ≠ .queued ∧
    (row.state = .claimed → ∃ lease, row.leaseUntil = some lease ∧ deadline ≤ lease)

/-- Claims come before the time, and the delivery is neither retried nor inserted again. -/
def StoreOp.untouched (messageId recipient : String) (deadline : Int) : StoreOp → Prop
  | .claimDue now _ _ => now < deadline
  | .recordAttemptFailure m r _ _ _ | .insertDelivery m r => ¬ (m = messageId ∧ r = recipient)
  | _ => True

/-- Nor is it moved back to the queue. -/
def StoreOp.respects (messageId recipient : String) (deadline : Int) (op : StoreOp) : Prop :=
  op.untouched messageId recipient deadline ∧ op ≠ .transition messageId recipient .queued

theorem StoreOp.respects.allows {op : StoreOp} (respects : op.respects messageId recipient deadline) :
    op.Allows (Leased messageId recipient deadline) := by
  obtain ⟨apart, unqueued⟩ := respects
  cases op with
  | insertDelivery m r => exact fun hit => absurd (delivery_is_iff.mp hit) apart
  | transition m r target =>
    intro d key allowed leased hit
    have here : d.is messageId recipient = true := hit
    obtain ⟨rfl, rfl⟩ := delivery_is_iff.mp key
    obtain ⟨id, address⟩ := delivery_is_iff.mp here
    refine ⟨fun queued => unqueued ?_, fun claimed => absurd ?_ (leased here).1⟩
    · have back : target = .queued := queued
      rw [back, id, address]
    · have forward : target = .claimed := claimed
      rw [forward] at allowed
      revert allowed
      cases d.state <;> decide
  | claimDue now lease most =>
    constructor
    · intro d lapsed leased hit
      simp only [Delivery.lapsed, Bool.and_eq_true, decide_eq_true_eq] at lapsed
      obtain ⟨until', known, long⟩ := (leased hit).2 lapsed.1
      have early : until' ≤ now := by simpa [known] using lapsed.2
      have before : now < deadline := apart
      omega
    · intro d e queued leased key hit
      obtain ⟨id, address⟩ := delivery_is_iff.mp key
      obtain ⟨id', address'⟩ := delivery_is_iff.mp hit
      exact absurd queued (leased (delivery_is_iff.mpr ⟨id.symm.trans id', address.symm.trans address'⟩)).1
  | recordAttemptFailure m r maxAttempts base cap =>
    have other : ∀ d : Delivery, d.is m r = true → d.is messageId recipient ≠ true := by
      intro d key hit
      obtain ⟨rfl, rfl⟩ := delivery_is_iff.mp key
      exact apart (delivery_is_iff.mp hit)
    exact ⟨fun d _ key _ hit => absurd hit (other d key), fun d _ _ key _ hit => absurd hit (other d key)⟩
  | expireDue now => exact fun d _ _ => ⟨by simp, fun claimed => by cases claimed⟩
  | inbox r limit => exact fun d _ _ => ⟨by simp, fun claimed => by cases claimed⟩
  | _ => trivial

variable [Platform]

/-- A claim that hands out a delivery is not followed, before its lease runs out, by one
that hands it out again, when the operations in between are as required. -/
def Exclusive (between : StoreOp → String → String → Int → Prop) : Prop :=
  ∀ (w : World) (earlier later : List (StoreOp × Input Outside)) (i i' : Input Outside)
    (now lease now' lease' : Int) (most most' : Nat) (claimed claimed' : List (Envelope × String))
    (env env' : Envelope) (recipient : String), w.store = .empty → 0 < lease →
    ((claimDue now lease most).exec ((perform w earlier).install i)).1 = .ok claimed →
    (env, recipient) ∈ claimed →
    (∀ call ∈ later, between call.1 env.messageId recipient (now + lease)) → now' < now + lease →
    ((claimDue now' lease' most').exec ((perform ((claimDue now lease most).exec
      ((perform w earlier).install i)).2 later).install i')).1 = .ok claimed' →
    (env', recipient) ∈ claimed' → env'.messageId ≠ env.messageId

end Exclusive

/-- A lease excludes other claims until it runs out, and one claim hands out each
delivery once. -/
theorem claims_exclusive [Platform] : Exclusive (fun op m r deadline => op.respects m r deadline) ∧
    ∀ (w : World) (earlier : List (StoreOp × Input Outside)) (i : Input Outside) (now lease : Int)
      (most : Nat) (claimed : List (Envelope × String)), w.store = .empty →
      ((claimDue now lease most).exec ((perform w earlier).install i)).1 = .ok claimed →
      (claimed.map fun entry => (entry.1.messageId, entry.2)).Nodup := by
  constructor
  · intro w earlier later i i' now lease now' lease' most most' claimed claimed' env env' recipient
      empty _ ran handed between before ran' handed' same
    have known : Rows (fun _ => True) ((perform w earlier).install i) := perform_once empty earlier
    obtain ⟨_, outcome⟩ := claimDue_hands_out (fun _ _ _ => trivial) (fun _ _ _ _ _ => trivial) most
      _ known
    have first := outcome claimed ran
    have leased : Rows (Leased env.messageId recipient (now + lease))
        ((claimDue now lease most).exec ((perform w earlier).install i)).2 := by
      refine ⟨first.rows.once, fun d member hit => ?_⟩
      obtain ⟨state, until'⟩ := first.leased (env, recipient) handed d member hit
      exact ⟨by rw [state]; simp, fun _ => ⟨_, until', Int.le_refl _⟩⟩
    have held : Rows (Leased env.messageId recipient (now + lease)) ((perform _ later).install i') :=
      perform_preserves (fun call member => (between call member).allows) leased
    have again : (StoreOp.claimDue now' lease' most').Allows (Leased env.messageId recipient (now + lease)) :=
      StoreOp.respects.allows ⟨before, by simp⟩
    obtain ⟨_, outcome'⟩ := claimDue_hands_out again.1 again.2 most' _ held
    obtain ⟨d, hit, queued, guarded⟩ := (outcome' claimed' ran').due (env', recipient) handed'
    rw [same] at hit
    exact (guarded hit).1 queued
  · intro w earlier i now lease most claimed empty ran
    have known : Rows (fun _ => True) ((perform w earlier).install i) := perform_once empty earlier
    obtain ⟨_, outcome⟩ := claimDue_hands_out (fun _ _ _ => trivial) (fun _ _ _ _ _ => trivial) most
      _ known
    exact (outcome claimed ran).once

section Sample

def samplePing : Envelope where
  specVersion := specVersion
  messageId := "m1"
  askId := none
  fromCell := "coder"
  toCell := some "reviewer"
  kind := .send
  msgType := .task
  principalCapabilities := []
  createdAt := rfc3339FromUnixSecs 1783242000
  expiresAt := rfc3339FromUnixSecs 1783328400
  seq := 1
  idempotencyKey := "k1"
  body := "ping"
  fileRefs := []
  taint := taint
  replyTo := none

/-- The message under this identifier and its delivery to the reviewer. -/
def submitting (messageId : String) : List (StoreOp × Input Outside) :=
  [(.insertEnvelope { samplePing with messageId := messageId }, moment 0),
    (.insertDelivery messageId "reviewer", moment 0)]

theorem claims_exclusive_held :
    let _ := Platform.sample
    let first := (claimDue 100 30 50).exec ((perform blankWorld (submitting "m1")).install (moment 0))
    let second := (claimDue 129 30 50).exec ((perform first.2
      ((.claimDue 110 60 50, moment 0) :: submitting "m2")).install (moment 0))
    (∃ ping, first.1 = .ok [(ping, "reviewer")] ∧ ping.messageId = "m1") ∧
      ∃ claimed, second.1 = .ok claimed ∧ claimed.length = 1 ∧
        ∀ env', (env', "reviewer") ∈ claimed → env'.messageId ≠ "m1" := by
  let _ := Platform.sample
  refine ⟨⟨samplePing, by decide +kernel, rfl⟩,
    [({ samplePing with messageId := "m2" }, "reviewer")], by decide +kernel, rfl, ?_⟩
  intro env' handed
  exact claims_exclusive.1 blankWorld (submitting "m1") ((.claimDue 110 60 50, moment 0) :: submitting "m2")
    (moment 0) (moment 0) 100 30 129 30 50 50 [(samplePing, "reviewer")]
    [({ samplePing with messageId := "m2" }, "reviewer")] samplePing env' "reviewer" rfl (by decide)
    (by decide +kernel) (by decide)
    (by simp [submitting, StoreOp.respects, StoreOp.untouched, samplePing]) (by decide)
    (by decide +kernel) handed

/-- Moved back to the queue, the delivery is handed out within its lease. -/
theorem requeued_claimed_again :
    ¬ @Exclusive .sample fun op messageId recipient deadline =>
      op.untouched messageId recipient deadline := by
  let _ := Platform.sample
  intro exclusive
  refine exclusive blankWorld (submitting "m1") [(.transition "m1" "reviewer" .queued, moment 0)]
    (moment 0) (moment 0) 100 30 110 30 50 50 [(samplePing, "reviewer")] [(samplePing, "reviewer")]
    samplePing samplePing "reviewer" rfl (by decide) ?_ (by decide) ?_ (by decide) ?_ (by decide) rfl
  · decide +kernel
  · simp [StoreOp.untouched]
  · decide +kernel

end Sample
end Crewd.Bus
