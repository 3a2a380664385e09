import Crewd.Bus.Steps

/-! What holds of the message tables, the audit chain and the recorded history
between any two steps of the bus, whatever failed before. -/
namespace Crewd.Bus
open Autocommit Concurrent Table

variable [Platform]

/-- What the tables say about a settled ask. -/
structure Replied (w : World) (ask : Ask) (reply : Envelope) : Prop where
  stored : reply ∈ w.store.envelopes
  recorded : ask.replyMessageId = some reply.messageId
  hash : ask.replyBodySha256 = some (Platform.sha256 reply.body)
  sender : reply.fromCell = ask.toCell
  recipient : reply.toCell = some ask.fromCell
  kind : reply.kind = .reply
  correlated : reply.askId = some ask.askId
  audited : Enqueued w.audit reply.messageId ask.fromCell

structure Inv (w : World) : Prop where
  envelopeMinted : ∀ env ∈ w.store.envelopes, Minted w env.messageId
  envelopesOnce : (w.store.envelopes.map (·.messageId)).Nodup
  deliveryKnown : ∀ d ∈ w.store.deliveries, ∃ env ∈ w.store.envelopes, env.messageId = d.envelopeId
  deliveriesOnce : (w.store.deliveries.map fun d => (d.envelopeId, d.recipient)).Nodup
  deliveryAudited : ∀ d ∈ w.store.deliveries,
    Enqueued w.audit d.envelopeId d.recipient ∨ FannedOut w.audit d.envelopeId d.recipient
  askMinted : ∀ ask ∈ w.store.asks, Minted w ask.askId
  asksOnce : (w.store.asks.map (·.askId)).Nodup
  dedupeOnce : (w.store.dedupe.map fun row => (row.fromCell, row.idempotencyKey)).Nodup
  bound : ∀ row ∈ w.store.dedupe, Bound w.store row
  replied : ∀ ask ∈ w.store.asks, ask.state = .answered → ∃ reply, Replied w ask reply
  settled : ∀ ask ∈ w.store.asks,
    (ask.state ≠ .pending ↔ ∃ reply, Mark.committed ask.askId reply ∈ w.history)
  committed : ∀ askId reply, Mark.committed askId reply ∈ w.history →
    ∃ ask ∈ w.store.asks, ask.askId = askId

theorem Minted.mono (minted : Minted w name) (more : w.minted ≤ w'.minted) : Minted w' name := by
  obtain ⟨n, less, same⟩ := minted
  exact ⟨n, Nat.lt_of_lt_of_le less more, same⟩

omit [Platform] in
theorem Enqueued.mono {chain chain' : List AuditEventDraft} (more : ∀ e ∈ chain, e ∈ chain')
    (h : Enqueued chain messageId recipient) : Enqueued chain' messageId recipient := by
  obtain ⟨event, member, same⟩ := h
  exact ⟨event, more event member, same⟩

omit [Platform] in
theorem FannedOut.mono {chain chain' : List AuditEventDraft} (more : ∀ e ∈ chain, e ∈ chain')
    (h : FannedOut chain messageId recipient) : FannedOut chain' messageId recipient := by
  obtain ⟨event, member, same⟩ := h
  exact ⟨event, more event member, same⟩

theorem Bound.mono (grows : Grows w w') (bound : Bound w.store row) : Bound w'.store row := by
  obtain ⟨env, member, id, sender, hash, delivered, ticket⟩ := bound
  refine ⟨env, grows.envelopes env member, id, sender, hash,
    fun r hr => grows.deliveries _ _ (delivered r hr), fun kind => ?_⟩
  obtain ⟨askId, same, known, ask, stored, askSame, message⟩ := ticket kind
  obtain ⟨ask', stored', askSame', message', _⟩ := grows.asks ask stored
  exact ⟨askId, same, known, ask', stored', askSame'.trans askSame, message'.trans message⟩

theorem Replied.mono (grows : Grows w w') (replied : Replied w ask reply) :
    Replied w' ask reply :=
  { replied with
    stored := grows.envelopes reply replied.stored
    audited := replied.audited.mono grows.audit }

namespace Inv

theorem initial (empty : w.store = .empty) (unmarked : w.history = []) : Inv w := by
  constructor <;> simp [empty, unmarked, Store.empty]

/-- A step that changes neither tables nor the marks of settled asks. -/
theorem frame (inv : Inv w) (grows : Grows w w') (store : w'.store = w.store)
    (marks : ∀ askId reply, Mark.committed askId reply ∈ w'.history ↔
      Mark.committed askId reply ∈ w.history) : Inv w' where
  envelopeMinted := store ▸ fun env h => (inv.envelopeMinted env h).mono grows.minted
  envelopesOnce := store ▸ inv.envelopesOnce
  deliveryKnown := store ▸ inv.deliveryKnown
  deliveriesOnce := store ▸ inv.deliveriesOnce
  deliveryAudited := store ▸ fun d h => (inv.deliveryAudited d h).imp
    (Enqueued.mono grows.audit) (FannedOut.mono grows.audit)
  askMinted := store ▸ fun ask h => (inv.askMinted ask h).mono grows.minted
  asksOnce := store ▸ inv.asksOnce
  dedupeOnce := store ▸ inv.dedupeOnce
  bound := store ▸ inv.bound
  replied := store ▸ fun ask h state =>
    let ⟨reply, replied⟩ := inv.replied ask h state
    ⟨reply, replied.mono grows⟩
  settled := store ▸ fun ask h => (inv.settled ask h).trans
    ⟨fun ⟨r, m⟩ => ⟨r, (marks _ r).mpr m⟩, fun ⟨r, m⟩ => ⟨r, (marks _ r).mp m⟩⟩
  committed := store ▸ fun askId reply h => inv.committed askId reply ((marks askId reply).mp h)

theorem ofEnvelope (inv : Inv w) {env : Envelope} (minted : Minted w env.messageId)
    (new : ∀ e ∈ w.store.envelopes, e.messageId ≠ env.messageId) :
    Inv { w with store := { w.store with envelopes := w.store.envelopes ++ [env] } } := by
  have grows := (Statement.envelope env minted new : Statement .main w _).grows
  exact { inv with
    envelopeMinted := by
      intro e he
      rcases List.mem_append.mp he with old | added
      · exact inv.envelopeMinted e old
      · cases List.mem_singleton.mp added; exact minted
    envelopesOnce := by
      simp only [List.map_append, List.map_cons, List.map_nil]
      refine List.nodup_append.mpr ⟨inv.envelopesOnce, by simp, ?_⟩
      simpa using new
    deliveryKnown := fun d h =>
      let ⟨e, member, same⟩ := inv.deliveryKnown d h
      ⟨e, List.mem_append_left _ member, same⟩
    bound := fun row h => (inv.bound row h).mono grows
    replied := fun ask h state =>
      let ⟨reply, replied⟩ := inv.replied ask h state
      ⟨reply, replied.mono grows⟩ }

theorem ofDelivery (inv : Inv w) {env : Envelope}
    (audited : Enqueued w.audit env.messageId recipient ∨ FannedOut w.audit env.messageId recipient)
    (known : env ∈ w.store.envelopes)
    (new : ∀ d ∈ w.store.deliveries, d.is env.messageId recipient = false)
    (admissible : Admissible w env recipient) :
    Inv { w with
      store := { w.store with
        deliveries := w.store.deliveries ++ [⟨env.messageId, recipient, .queued, 0, none, 0⟩] }
      history := .passed (.enqueued env recipient) :: w.history } := by
  have grows := (Statement.delivery env recipient audited known new admissible :
    Statement .main w _).grows
  exact { inv with
    deliveryKnown := by
      intro d hd
      rcases List.mem_append.mp hd with old | added
      · exact inv.deliveryKnown d old
      · cases List.mem_singleton.mp added; exact ⟨env, known, rfl⟩
    deliveriesOnce := by
      simp only [List.map_append, List.map_cons, List.map_nil]
      refine List.nodup_append.mpr ⟨inv.deliveriesOnce, by simp, ?_⟩
      intro key hkey _ hnew same
      obtain ⟨d, member, rfl⟩ := List.mem_map.mp hkey
      have absent := new d member
      simp_all [Delivery.is]
    deliveryAudited := by
      intro d hd
      rcases List.mem_append.mp hd with old | added
      · exact inv.deliveryAudited d old
      · cases List.mem_singleton.mp added; exact audited
    bound := fun row h => (inv.bound row h).mono grows
    replied := fun ask h state =>
      let ⟨reply, replied⟩ := inv.replied ask h state
      ⟨reply, replied.mono grows⟩
    settled := fun ask h => by simpa using inv.settled ask h
    committed := fun askId reply h => inv.committed askId reply (by simpa using h) }

theorem ofAsk (inv : Inv w) {row : Ask} (pending : row.state = .pending)
    (minted : Minted w row.askId) (new : ∀ ask ∈ w.store.asks, ask.askId ≠ row.askId) :
    Inv { w with store := { w.store with asks := w.store.asks ++ [row] } } := by
  have bound : ∀ dedupe ∈ w.store.dedupe,
      Bound { w.store with asks := w.store.asks ++ [row] } dedupe := by
    intro dedupe h
    obtain ⟨env, member, id, sender, hash, delivered, ticket⟩ := inv.bound dedupe h
    refine ⟨env, member, id, sender, hash, delivered, fun kind => ?_⟩
    obtain ⟨askId, same, known, ask, stored, rest⟩ := ticket kind
    exact ⟨askId, same, known, ask, List.mem_append_left _ stored, rest⟩
  exact { inv with
    askMinted := by
      intro ask h
      rcases List.mem_append.mp h with old | added
      · exact inv.askMinted ask old
      · cases List.mem_singleton.mp added; exact minted
    asksOnce := by
      simp only [List.map_append, List.map_cons, List.map_nil]
      refine List.nodup_append.mpr ⟨inv.asksOnce, by simp, ?_⟩
      simpa using new
    bound := bound
    replied := by
      intro ask h state
      rcases List.mem_append.mp h with old | added
      · obtain ⟨reply, replied⟩ := inv.replied ask old state
        exact ⟨reply, { replied with }⟩
      · cases List.mem_singleton.mp added; rw [pending] at state; cases state
    settled := by
      intro ask h
      rcases List.mem_append.mp h with old | added
      · exact inv.settled ask old
      · cases List.mem_singleton.mp added
        refine ⟨fun other => absurd pending other, fun ⟨reply, mark⟩ => ?_⟩
        obtain ⟨ask, stored, same⟩ := inv.committed _ _ mark
        exact absurd same (new ask stored)
    committed := fun askId reply mark =>
      let ⟨ask, stored, same⟩ := inv.committed askId reply mark
      ⟨ask, List.mem_append_left _ stored, same⟩ }

theorem ofBinding (inv : Inv w) {row : Dedupe} (bound : Bound w.store row)
    (new : ∀ known ∈ w.store.dedupe, known.is row.fromCell row.idempotencyKey = false) :
    Inv { w with store := { w.store with dedupe := w.store.dedupe ++ [row] } } :=
  { inv with
    dedupeOnce := by
      simp only [List.map_append, List.map_cons, List.map_nil]
      refine List.nodup_append.mpr ⟨inv.dedupeOnce, by simp, ?_⟩
      intro key hkey _ hnew same
      obtain ⟨known, member, rfl⟩ := List.mem_map.mp hkey
      have absent := new known member
      simp_all [Dedupe.is]
    bound := by
      intro known h
      rcases List.mem_append.mp h with old | added
      · exact inv.bound known old
      · cases List.mem_singleton.mp added; exact bound
    replied := fun ask h state =>
      let ⟨reply, replied⟩ := inv.replied ask h state
      ⟨reply, { replied with }⟩ }

theorem ofMoved (inv : Inv w) (moves : Moves self w cause p f) : Inv (moveRows cause p f w) := by
  have grows := (Statement.moved moves).grows
  have same : ∀ d : Delivery, (if p d then f d else d).envelopeId = d.envelopeId ∧
      (if p d then f d else d).recipient = d.recipient := by
    intro d
    split
    · exact moves.keeps d
    · exact ⟨rfl, rfl⟩
  have marks : ∀ askId reply, Mark.committed askId reply ∈ (moveRows cause p f w).history ↔
      Mark.committed askId reply ∈ w.history := by
    intro askId reply
    simp [moveRows]
  exact { inv with
    deliveryKnown := by
      intro d hd
      obtain ⟨old, member, rfl⟩ := mem_updateWhere.mp hd
      rw [(same old).1]
      exact inv.deliveryKnown old member
    deliveriesOnce := by
      show (List.map _ (updateWhere p f w.store.deliveries)).Nodup
      rw [map_updateWhere fun d _ _ => by rw [(moves.keeps d).1, (moves.keeps d).2]]
      exact inv.deliveriesOnce
    deliveryAudited := by
      intro d hd
      obtain ⟨old, member, rfl⟩ := mem_updateWhere.mp hd
      rw [(same old).1, (same old).2]
      exact inv.deliveryAudited old member
    bound := fun row h => (inv.bound row h).mono grows
    replied := fun ask h state =>
      let ⟨reply, replied⟩ := inv.replied ask h state
      ⟨reply, replied.mono grows⟩
    settled := fun ask h => (inv.settled ask h).trans (by simp only [marks])
    committed := fun askId reply h => inv.committed askId reply ((marks askId reply).mp h) }

omit [Platform] in
/-- With one row for an identifier, an update by identifier changes this row only. -/
theorem mem_updateAsk {st : Store} {f : Ask → Ask} :
    ask ∈ (st.updateAsk askId f).asks ↔
      (ask ∈ st.asks ∧ ask.askId ≠ askId) ∨ ∃ old ∈ st.asks, old.askId = askId ∧ ask = f old := by
  simp only [Store.updateAsk, mem_updateWhere]
  constructor
  · rintro ⟨old, member, rfl⟩
    by_cases same : old.askId = askId
    · exact .inr ⟨old, member, same, by simp [same]⟩
    · exact .inl ⟨by simpa [same] using member, by simp [same]⟩
  · rintro (⟨member, other⟩ | ⟨old, member, same, rfl⟩)
    · exact ⟨ask, member, by simp [other]⟩
    · exact ⟨old, member, by simp [same]⟩

theorem ask_unique (inv : Inv w) (first : ask ∈ w.store.asks) (second : other ∈ w.store.asks)
    (same : ask.askId = other.askId) : ask = other :=
  List.inj_on_of_nodup_map inv.asksOnce first second same

/-- Settling a pending ask, by a reply or by expiry. -/
theorem ofSettled (inv : Inv w) {askId : String} {f : Ask → Ask} {reply : Option String}
    (open_ : ∃ ask ∈ w.store.asks, ask.askId = askId ∧ ask.state = .pending)
    (keeps : ∀ ask, (f ask).askId = ask.askId ∧ (f ask).messageId = ask.messageId ∧
      (f ask).fromCell = ask.fromCell ∧ (f ask).toCell = ask.toCell ∧
      (f ask).expiresAt = ask.expiresAt)
    (settles : ∀ ask, (f ask).state ≠ .pending)
    (answers : ∀ ask ∈ w.store.asks, ask.askId = askId → (f ask).state = .answered →
      ∃ env, Replied w (f ask) env) :
    Inv { w with
      store := w.store.updateAsk askId f, history := .committed askId reply :: w.history } := by
  have grows : Grows w { w with
      store := w.store.updateAsk askId f, history := .committed askId reply :: w.history } :=
    .updateAsk (List.suffix_cons _ _) keeps
  exact { inv with
    askMinted := by
      intro ask h
      rcases mem_updateAsk.mp h with ⟨old, _⟩ | ⟨old, member, _, rfl⟩
      · exact inv.askMinted ask old
      · rw [(keeps old).1]; exact inv.askMinted old member
    asksOnce := by
      show (List.map _ (updateWhere _ f w.store.asks)).Nodup
      rw [map_updateWhere fun ask _ _ => (keeps ask).1]
      exact inv.asksOnce
    bound := fun row h => (inv.bound row h).mono grows
    replied := by
      intro ask h state
      rcases mem_updateAsk.mp h with ⟨old, _⟩ | ⟨old, member, same, rfl⟩
      · obtain ⟨env, replied⟩ := inv.replied ask old state
        exact ⟨env, replied.mono grows⟩
      · obtain ⟨env, replied⟩ := answers old member same state
        exact ⟨env, replied.mono grows⟩
    settled := by
      intro ask h
      rcases mem_updateAsk.mp h with ⟨old, other⟩ | ⟨old, member, same, rfl⟩
      · refine (inv.settled ask old).trans ?_
        simp [other]
      · refine iff_of_true (settles old) ⟨reply, ?_⟩
        rw [(keeps old).1, same]
        exact List.mem_cons_self
    committed := by
      intro id reply' mark
      have known : ∃ ask ∈ w.store.asks, ask.askId = id := by
        rcases List.mem_cons.mp mark with this | earlier
        · cases this
          obtain ⟨ask, member, same, _⟩ := open_
          exact ⟨ask, member, same⟩
        · exact inv.committed id reply' earlier
      obtain ⟨ask, member, same⟩ := known
      obtain ⟨ask', member', same', _⟩ := grows.asks ask member
      exact ⟨ask', member', same'.trans same⟩ }

theorem ofAnswered (inv : Inv w) (answers : Answers w askId reply) :
    Inv { w with
      store := w.store.updateAsk askId (Ask.answeredBy reply)
      history := .committed askId (some reply.messageId) :: w.history } := by
  obtain ⟨ask, member, same, pending, sender, recipient, audited⟩ := answers.ticket
  refine inv.ofSettled ⟨ask, member, same, pending⟩ (fun _ => ⟨rfl, rfl, rfl, rfl, rfl⟩)
    (fun _ => by simp [Ask.answeredBy]) fun ask' member' same' _ => ⟨reply, ?_⟩
  have : ask = ask' := inv.ask_unique member member' (same.trans same'.symm)
  subst this
  exact ⟨answers.stored, rfl, rfl, sender.symm, recipient, answers.kind,
    answers.correlated.trans (congrArg some same.symm), audited⟩

theorem ofExpired (inv : Inv w)
    (open_ : ∃ ask ∈ w.store.asks, ask.askId = askId ∧ ask.state = .pending) :
    Inv { w with
      store := w.store.updateAsk askId fun ask => { ask with state := .expired }
      history := .committed askId none :: w.history } :=
  inv.ofSettled open_ (fun _ => ⟨rfl, rfl, rfl, rfl, rfl⟩) (fun _ => by simp)
    fun _ _ _ state => by cases state

end Inv

/-- No step breaks the invariant. -/
theorem Statement.inv (step : Statement self w w') (inv : Inv w) : Inv w' := by
  have grows := step.grows
  cases step with
  | quiet same => exact inv.frame grows same.store (by simp [same.history])
  | counters c _ => exact { inv with
      bound := fun row h => (inv.bound row h).mono grows
      replied := fun ask h state =>
        let ⟨reply, replied⟩ := inv.replied ask h state
        ⟨reply, replied.mono grows⟩ }
  | envelope env minted new => exact inv.ofEnvelope minted new
  | event draft => exact inv.frame grows rfl (by simp)
  | delivery env recipient audited known new admissible =>
    exact inv.ofDelivery audited known new admissible
  | ask row pending _ _ minted new _ => exact inv.ofAsk pending minted new
  | binding row bound new => exact inv.ofBinding bound new
  | answered askId reply answers => exact inv.ofAnswered answers
  | expired askId open_ => exact inv.ofExpired open_
  | moved moves => exact inv.ofMoved moves
  | noted passage _ => exact inv.frame grows rfl (by simp)
  | memory m _ _ => exact inv.frame grows rfl (by simp)
  | firstRead _ _ _ _ | registered _ _ _ _ | resumed _ _ _ | reread _ _ _ _ | fetching _ _ _
  | restarted _ _ _ =>
    exact inv.frame grows rfl (by simp [registerWaker])
  | polled task askId _ _ _ =>
    refine inv.frame grows ?_ fun id reply => ?_ <;> simp only [pollWaker, Action.exec_step]
    · split <;> rfl
    · split <;> simp
  | polledAgain task askId _ _ _ =>
    refine inv.frame grows ?_ fun id reply => ?_ <;> simp only [pollWakerAgain]
    · split <;> rfl
    · split <;> simp
  | notified askId =>
    refine inv.frame grows ?_ fun id reply => ?_ <;> simp only [notifyAsker, Action.exec_step]
    · split <;> rfl
    · split <;> simp

end Crewd.Bus
