import Mathlib.Data.List.Nodup
import Crewd.Bus.Passages
import Crewd.Statements

/-! The elementary steps of the bus. Every critical section is a sequence of them,
also when it fails halfway, so what each step keeps holds in every state. -/
namespace Crewd.Bus
open Autocommit Concurrent Table

/-- A durable `enqueued` event for the message. -/
def Enqueued (chain : List AuditEventDraft) (messageId recipient : String) : Prop :=
  ∃ event ∈ chain, event.kind = "enqueued" ∧ event.messageId = some messageId ∧
    event.toCell = some recipient

/-- A durable `broadcast_fanned_out` event for the message that lists the recipient. -/
def FannedOut (chain : List AuditEventDraft) (messageId recipient : String) : Prop :=
  ∃ event ∈ chain, event.kind = "broadcast_fanned_out" ∧ event.messageId = some messageId ∧
    ∃ included denied, event.detail = some (fanoutDetail included denied) ∧ recipient ∈ included

def HasDelivery (st : Store) (messageId recipient : String) : Prop :=
  ∃ d ∈ st.deliveries, d.envelopeId = messageId ∧ d.recipient = recipient

/-- The ticket of the ask envelope `env`. -/
def HasTicket (st : Store) (env : Envelope) (askId : String) : Prop :=
  env.askId = some askId ∧ ∃ ask ∈ st.asks, ask.askId = askId ∧ ask.messageId = env.messageId

/-- The awaits of an ask that have registered and not stopped waiting since. -/
def inProgress (askId : String) : List Mark → List Nat
  | [] => []
  | .registered task id _ :: earlier =>
    if id = askId then task :: inProgress askId earlier else inProgress askId earlier
  | .woke task id :: earlier | .slept task id :: earlier =>
    if id = askId then (inProgress askId earlier).erase task else inProgress askId earlier
  | .restarted :: _ => []
  | _ :: earlier => inProgress askId earlier

/-- The task stands neither among the waiters of the ask nor among those notified. -/
def Unqueued (task : Nat) (askId : String) (m : Memory) : Prop :=
  task ∉ (m.wakerOrNew askId).waiting ∧ task ∉ (m.wakerOrNew askId).notified

def Queued (task : Nat) (askId : String) (m : Memory) : Prop :=
  task ∈ (m.wakerOrNew askId).waiting ∨ task ∈ (m.wakerOrNew askId).notified

section Growth

/-- Rows are never removed, and the identity of a row never changes. -/
structure Grows (w w' : World) : Prop where
  minted : w.minted ≤ w'.minted
  envelopes : ∀ e ∈ w.store.envelopes, e ∈ w'.store.envelopes
  deliveries : ∀ messageId recipient, HasDelivery w.store messageId recipient →
    HasDelivery w'.store messageId recipient
  asks : ∀ ask ∈ w.store.asks, ∃ ask' ∈ w'.store.asks, ask'.askId = ask.askId ∧
    ask'.messageId = ask.messageId ∧ ask'.fromCell = ask.fromCell ∧ ask'.toCell = ask.toCell ∧
    ask'.expiresAt = ask.expiresAt
  audit : ∀ event ∈ w.audit, event ∈ w'.audit
  history : w.history <:+ w'.history

theorem Grows.refl (w : World) : Grows w w :=
  ⟨Nat.le_refl _, fun _ h => h, fun _ _ h => h,
    fun ask h => ⟨ask, h, rfl, rfl, rfl, rfl, rfl⟩, fun _ h => h, List.suffix_refl _⟩

theorem Grows.trans (first : Grows w w') (second : Grows w' w'') : Grows w w'' where
  minted := Nat.le_trans first.minted second.minted
  envelopes e h := second.envelopes e (first.envelopes e h)
  deliveries m r h := second.deliveries m r (first.deliveries m r h)
  asks ask h := by
    obtain ⟨ask', h', same⟩ := first.asks ask h
    obtain ⟨ask'', h'', same'⟩ := second.asks ask' h'
    exact ⟨ask'', h'', same'.1.trans same.1, same'.2.1.trans same.2.1,
      same'.2.2.1.trans same.2.2.1, same'.2.2.2.1.trans same.2.2.2.1,
      same'.2.2.2.2.trans same.2.2.2.2⟩
  audit e h := second.audit e (first.audit e h)
  history := first.history.trans second.history

/-- A step that leaves the tables alone. -/
theorem Grows.of_store (store : w'.store = w.store) (minted : w.minted ≤ w'.minted)
    (audit : ∀ event ∈ w.audit, event ∈ w'.audit) (history : w.history <:+ w'.history) :
    Grows w w' := by
  refine ⟨minted, ?_, ?_, ?_, audit, history⟩
  · rw [store]; exact fun _ h => h
  · rw [store]; exact fun _ _ h => h
  · rw [store]; exact fun ask h => ⟨ask, h, rfl, rfl, rfl, rfl, rfl⟩

theorem HasDelivery.updated {st : Store} {p : Delivery → Bool} {f : Delivery → Delivery}
    (keeps : ∀ d, (f d).envelopeId = d.envelopeId ∧ (f d).recipient = d.recipient)
    (has : HasDelivery st messageId recipient) :
    HasDelivery { st with deliveries := updateWhere p f st.deliveries } messageId recipient := by
  obtain ⟨d, member, rfl, rfl⟩ := has
  refine ⟨if p d then f d else d, mem_updateWhere.mpr ⟨d, member, rfl⟩, ?_⟩
  split
  · exact keeps d
  · exact ⟨rfl, rfl⟩

theorem Grows.updateAsk {f : Ask → Ask} (history : w.history <:+ history')
    (keeps : ∀ ask, (f ask).askId = ask.askId ∧ (f ask).messageId = ask.messageId ∧
      (f ask).fromCell = ask.fromCell ∧ (f ask).toCell = ask.toCell ∧
      (f ask).expiresAt = ask.expiresAt) :
    Grows w { w with store := w.store.updateAsk askId f, history := history' } := by
  refine ⟨Nat.le_refl _, fun _ h => h, fun _ _ h => h, fun ask h => ?_, fun _ h => h, history⟩
  refine ⟨if ask.askId = askId then f ask else ask, mem_updateWhere.mpr ⟨ask, h, by simp⟩, ?_⟩
  split
  · exact keeps ask
  · exact ⟨rfl, rfl, rfl, rfl, rfl⟩

end Growth

variable [Platform]

/-- The identifier was handed out before. -/
def Minted (w : World) (id : String) : Prop := ∃ n < w.minted, id = Platform.uuid n

/-- The ask was opened by a stored envelope. -/
def Opened (st : Store) (row : AskRow) : Prop :=
  ∃ env ∈ st.envelopes, env.messageId = row.messageId ∧ env.kind = .ask ∧
    env.askId = some row.askId ∧ env.fromCell = row.fromCell ∧ env.toCell = some row.toCell

/-- A dedupe row points to a complete submission under its own key. -/
def Bound (st : Store) (row : Dedupe) : Prop :=
  ∃ env ∈ st.envelopes, env.messageId = row.messageId ∧ env.fromCell = row.fromCell ∧
    Platform.sha256 env.body = row.bodySha256 ∧
    (∀ recipient, env.toCell = some recipient → HasDelivery st env.messageId recipient) ∧
    (env.kind = .ask → ∃ askId, row.askId = some askId ∧ HasTicket st env askId)

def Ask.answeredBy (reply : Envelope) (ask : Ask) : Ask := { ask with
  state := .answered
  replyMessageId := some reply.messageId
  replyBodySha256 := some (Platform.sha256 reply.body) }

/-- `reply` may settle the ask: it is pending, and the reply comes from its addressee. -/
structure Answers (w : World) (askId : String) (reply : Envelope) : Prop where
  ticket : ∃ ask ∈ w.store.asks, ask.askId = askId ∧ ask.state = .pending ∧
    ask.toCell = reply.fromCell ∧ reply.toCell = some ask.fromCell ∧
    Enqueued w.audit reply.messageId ask.fromCell
  stored : reply ∈ w.store.envelopes
  kind : reply.kind = .reply
  correlated : reply.askId = some askId

/-- The number that the pair's next message gets. -/
def Store.nextFor (st : Store) (fromCell toCell : String) : Nat :=
  ((st.seqCounters.find? (·.is fromCell toCell)).map (·.nextSeq)).getD 1

/-- What holds of a message when it is enqueued for the recipient. -/
structure Admissible (w : World) (env : Envelope) (recipient : String) : Prop where
  fanned : env.kind = .broadcast → env.seq = 0
  numbered : env.kind ≠ .broadcast → env.seq < w.store.nextFor env.fromCell recipient ∧
    ∀ earlier, (earlier, recipient) ∈ enqueues (passages w.history) →
      earlier.fromCell = env.fromCell → earlier.seq < env.seq

/-- When an update of delivery rows may run, and what it does to them. -/
inductive Moves (self : Actor) (w : World) :
    Cause → (Delivery → Bool) → (Delivery → Delivery) → Prop where
  | released (now : Int) : self = .main → Moves self w .released (·.lapsed now)
      fun d => { d with state := .queued, leaseUntil := none }
  | claimed (messageId recipient : String) (lease : Int) : self = .main →
      (∃ nowMs held, opening .claimed (passages w.history) = some (.claiming nowMs held)) →
      (∀ d ∈ w.store.deliveries, d.is messageId recipient = true → d.state = .queued) →
      Moves self w .claimed (·.is messageId recipient)
        fun d => { d with state := .claimed, leaseUntil := some lease }
  | outcome (messageId recipient : String) (target : DeliveryState) : self = .main →
      target.settled = true →
      (∀ d ∈ w.store.deliveries, d.is messageId recipient = true →
        transitionAllowed d.state target = true) →
      Moves self w .outcome (·.is messageId recipient) fun d => { d with state := target }
  | exhausted (messageId recipient : String) (attempts : Nat) : self = .main →
      (∀ d ∈ w.store.deliveries, d.is messageId recipient = true →
        d.state = .claimed ∨ d.state = .delivered) →
      Moves self w .retried (·.is messageId recipient)
        fun d => { d with state := .failed, attempts := attempts }
  | requeued (messageId recipient : String) (attempts : Nat) (retryAt : Int) : self = .main →
      (∀ d ∈ w.store.deliveries, d.is messageId recipient = true →
        d.state = .claimed ∨ d.state = .delivered) →
      (∀ env, (env, recipient) ∈ enqueues (passages w.history) → env.messageId = messageId →
        ¬ Swept env recipient (passages w.history)) →
      Moves self w .retried (·.is messageId recipient)
        fun d => { d with state := .queued, attempts := attempts, leaseUntil := none,
                          nextRetryAt := retryAt }
  | expired (messageId recipient : String) : self = .main →
      (∀ d ∈ w.store.deliveries, d.is messageId recipient = true → d.pending = true) →
      Moves self w .expired (·.is messageId recipient) fun d => { d with state := .expired }
  | pulled (messageId recipient : String) :
      (∀ d ∈ w.store.deliveries, d.is messageId recipient = true → d.pending = true) →
      Moves self w .pulled (·.is messageId recipient)
        fun d => { d with state := .delivered, leaseUntil := none }

omit [Platform] in
theorem Moves.keeps (moves : Moves self w cause p f) (d : Delivery) :
    (f d).envelopeId = d.envelopeId ∧ (f d).recipient = d.recipient := by
  cases moves <;> exact ⟨rfl, rfl⟩

/-- Every earlier message of the pair is settled, was held back when the batch was
claimed, or has had an outcome applied in this batch that did not settle it. -/
def InTurn (w : World) (messageId recipient : String) : Prop :=
  ∀ env earlier, env.messageId = messageId → earlier.fromCell = env.fromCell →
    Precedes earlier env recipient (passages w.history) →
    (∀ d ∈ w.store.deliveries, d.is earlier.messageId recipient = true → d.pending = false) ∨
    (earlier.messageId, recipient) ∈ heldNow (passages w.history) ∨
    ∃ passage ∈ sinceClaiming (passages w.history),
      passage.applies earlier.messageId recipient = true ∧ passage.final = false

/-- The event that the loop appends fits to the outcome it has just applied. -/
def Announces (passed : List Passage) (kind messageId recipient : String) : Prop :=
  ∃ outcome row maxAttempts failing,
    lastApplying passed = some (.applying messageId recipient outcome row maxAttempts failing) ∧
    (kind = "delivered" ∧ (outcome = .delivered ∨ outcome = .acked) ∨
      kind = "delivery_failed" ∧ (outcome = .permanentFailure ∨ outcome = .transientFailure)) ∧
    (outcome ≠ .transientFailure → failing = false → ∀ d, row = some d →
      transitionAllowed d.state (outcomeToState outcome) = true →
      lastMove passed = some (messageId, recipient, d.state, outcomeToState outcome)) ∧
    (outcome = .transientFailure → ∃ before, before ≠ .failed ∧
      lastMove passed = some (messageId, recipient, before, .failed))

/-- When a passage may be noted. -/
inductive Notes (self : Actor) (w : World) : Passage → Prop where
  | swept (now : String) : self = .main →
      (∀ d ∈ w.store.deliveries, d.pending = true → ∀ env ∈ w.store.envelopes,
        env.messageId = d.envelopeId → ¬ env.expiresAt ≤ now) → Notes self w (.swept now)
  | claiming (nowMs : Nat) (nowUnix : Int) : self = .main →
      Notes self w (.claiming nowMs (w.store.heldBack nowUnix))
  | offered (messageId recipient : String) : self = .main → InTurn w messageId recipient →
      Notes self w (.offered messageId recipient)
  | applying (messageId recipient : String) (outcome : DeliveryOutcome) (maxAttempts : Nat)
      (failing : Bool) : self = .main →
      Notes self w (.applying messageId recipient outcome
        (w.store.delivery messageId recipient) maxAttempts failing)
  | announced (kind messageId recipient : String) : self = .main →
      Announces (passages w.history) kind messageId recipient →
      Notes self w (.announced kind messageId recipient)
  | pulling (recipient : String) (limit nowMs : Nat) :
      Notes self w (.pulling recipient ((w.store.inboxOrder recipient).take limit) nowMs)
  | shown (recipient : String) (chosen : List Envelope) (nowMs : Nat) :
      opening .pulled (passages w.history) = some (.pulling recipient chosen nowMs) →
      (∀ env ∈ chosen, ∀ d ∈ w.store.deliveries, d.is env.messageId recipient = true →
        d.pending = false) → Notes self w (.shown recipient chosen)

inductive Statement (self : Actor) : World → World → Prop where
  | quiet : w.Quiet w' → Statement self w w'
  | counters (c) : (∀ s r, w.store.nextFor s r ≤ { w.store with seqCounters := c }.nextFor s r) →
      Statement self w { w with store := { w.store with seqCounters := c } }
  | envelope (env : Envelope) : Minted w env.messageId →
      (∀ e ∈ w.store.envelopes, e.messageId ≠ env.messageId) →
      Statement self w { w with
        store := { w.store with envelopes := w.store.envelopes ++ [env] } }
  | event (draft) : Statement self w { w with audit := w.audit ++ [draft] }
  | delivery (env : Envelope) (recipient : String) :
      Enqueued w.audit env.messageId recipient ∨ FannedOut w.audit env.messageId recipient →
      env ∈ w.store.envelopes →
      (∀ d ∈ w.store.deliveries, d.is env.messageId recipient = false) →
      Admissible w env recipient →
      Statement self w { w with
        store := { w.store with
          deliveries := w.store.deliveries ++ [⟨env.messageId, recipient, .queued, 0, none, 0⟩] }
        history := .passed (.enqueued env recipient) :: w.history }
  | ask (row : Ask) : row.state = .pending → row.replyMessageId = none →
      row.replyBodySha256 = none → Minted w row.askId →
      (∀ ask ∈ w.store.asks, ask.askId ≠ row.askId) → Opened w.store row.toAskRow →
      Statement self w { w with store := { w.store with asks := w.store.asks ++ [row] } }
  | binding (row : Dedupe) : Bound w.store row →
      (∀ known ∈ w.store.dedupe, known.is row.fromCell row.idempotencyKey = false) →
      Statement self w { w with store := { w.store with dedupe := w.store.dedupe ++ [row] } }
  | answered (askId : String) (reply : Envelope) : Answers w askId reply →
      Statement self w { w with
        store := w.store.updateAsk askId (Ask.answeredBy reply)
        history := .committed askId (some reply.messageId) :: w.history }
  | expired (askId : String) :
      (∃ ask ∈ w.store.asks, ask.askId = askId ∧ ask.state = .pending) →
      Statement self w { w with
        store := w.store.updateAsk askId fun ask => { ask with state := .expired }
        history := .committed askId none :: w.history }
  | moved : Moves self w cause p f → Statement self w (moveRows cause p f w)
  | noted (passage : Passage) : Notes self w passage →
      Statement self w { w with history := .passed passage :: w.history }
  | memory (m : Memory) : m.acl = w.memory.acl → m.askWakers = w.memory.askWakers →
      Statement self w { w with memory := m }
  | firstRead (task : Nat) (ask : Ask) : self = .task task → ask ∈ w.store.asks →
      Statement self w { w with history := .firstRead task ask.toAskRow :: w.history }
  | registered (task : Nat) (askId : String) : self = .task task →
      task ∉ inProgress askId w.history → Statement self w ((registerWaker task askId).exec w).2
  | polled (task : Nat) (askId : String) : self = .task task →
      task ∈ inProgress askId w.history → Unqueued task askId w.memory →
      Statement self w ((pollWaker task askId).exec w).2
  | polledAgain (task : Nat) (askId : String) : self = .task task →
      task ∈ inProgress askId w.history → Queued task askId w.memory →
      Statement self w (pollWakerAgain task askId w).2
  | resumed (task : Nat) (askId : String) : self = .task task →
      Statement self w { w with history := .resumed task askId :: w.history }
  | reread (task : Nat) (ask : Ask) : self = .task task → ask ∈ w.store.asks →
      Statement self w { w with history := .reread task ask.toAskRow :: w.history }
  | fetching (task : Nat) (messageId : String) : self = .task task →
      Statement self w { w with history := .fetching task messageId w.failsNext :: w.history }
  | notified (askId : String) : Statement self w ((notifyAsker askId).exec w).2
  | restarted (m : Memory) : self = .restart → m.askWakers = [] →
      Statement self w { w with
        memory := m
        history := .restarted :: w.history }

theorem Statement.grows (step : Statement self w w') : Grows w w' := by
  cases step with
  | quiet same =>
    exact .of_store same.store same.minted (by rw [same.audit]; exact fun _ h => h)
      (same.history ▸ List.suffix_refl _)
  | counters c _ =>
    exact ⟨Nat.le_refl _, fun _ h => h, fun _ _ h => h,
      fun ask h => ⟨ask, h, rfl, rfl, rfl, rfl, rfl⟩, fun _ h => h, List.suffix_refl _⟩
  | envelope env _ _ =>
    exact ⟨Nat.le_refl _, fun _ h => List.mem_append_left _ h, fun _ _ h => h,
      fun ask h => ⟨ask, h, rfl, rfl, rfl, rfl, rfl⟩, fun _ h => h, List.suffix_refl _⟩
  | event draft =>
    exact .of_store rfl (Nat.le_refl _) (fun _ h => List.mem_append_left _ h) (List.suffix_refl _)
  | delivery env recipient _ _ _ _ =>
    exact ⟨Nat.le_refl _, fun _ h => h,
      fun m r ⟨d, h, same⟩ => ⟨d, List.mem_append_left _ h, same⟩,
      fun ask h => ⟨ask, h, rfl, rfl, rfl, rfl, rfl⟩, fun _ h => h, List.suffix_cons _ _⟩
  | ask row _ _ _ _ _ _ =>
    exact ⟨Nat.le_refl _, fun _ h => h, fun _ _ h => h,
      fun ask h => ⟨ask, List.mem_append_left _ h, rfl, rfl, rfl, rfl, rfl⟩, fun _ h => h,
      List.suffix_refl _⟩
  | binding row _ _ =>
    exact ⟨Nat.le_refl _, fun _ h => h, fun _ _ h => h,
      fun ask h => ⟨ask, h, rfl, rfl, rfl, rfl, rfl⟩, fun _ h => h, List.suffix_refl _⟩
  | answered askId reply _ =>
    exact .updateAsk (List.suffix_cons _ _) fun _ => ⟨rfl, rfl, rfl, rfl, rfl⟩
  | expired askId _ =>
    exact .updateAsk (List.suffix_cons _ _) fun _ => ⟨rfl, rfl, rfl, rfl, rfl⟩
  | moved moves =>
    exact ⟨Nat.le_refl _, fun _ h => h, fun _ _ h => h.updated moves.keeps,
      fun ask h => ⟨ask, h, rfl, rfl, rfl, rfl, rfl⟩, fun _ h => h, List.suffix_append _ _⟩
  | noted passage _ =>
    exact .of_store rfl (Nat.le_refl _) (fun _ h => h) (List.suffix_cons _ _)
  | memory m _ _ => exact .of_store rfl (Nat.le_refl _) (fun _ h => h) (List.suffix_refl _)
  | firstRead _ _ _ _ | registered _ _ _ _ | resumed _ _ _ | reread _ _ _ _ | fetching _ _ _
  | restarted _ _ _ =>
    exact .of_store rfl (Nat.le_refl _) (fun _ h => h) (List.suffix_cons _ _)
  | polled task askId _ _ _ =>
    simp only [pollWaker, Action.exec_step]
    split
    · exact .of_store rfl (Nat.le_refl _) (fun _ h => h) (List.suffix_cons _ _)
    · exact .of_store rfl (Nat.le_refl _) (fun _ h => h) (List.suffix_refl _)
  | polledAgain task askId _ _ _ =>
    simp only [pollWakerAgain]
    split <;> exact .of_store rfl (Nat.le_refl _) (fun _ h => h) (List.suffix_cons _ _)
  | notified askId =>
    simp only [notifyAsker, Action.exec_step]
    split <;> exact .of_store rfl (Nat.le_refl _) (fun _ h => h) (List.suffix_cons _ _)

end Crewd.Bus
