import Crewd.Bus.Passing
import Crewd.Bus.Sections

/-! The three submitting tools, run from any state in which the invariant holds:
their sections are made of elementary steps, and a fresh submission that answers
success is held by the store. -/
namespace Crewd.Bus
open Autocommit Concurrent Table

/-- What a submission says, whichever tool it came through. -/
structure Submission where
  caller : String
  kind : Kind
  toCell : Option String
  recipients : List String
  msgType : MsgType
  body : String
  fileRefs : List String

structure Submission.Matches (sub : Submission) (env : Envelope) : Prop where
  fromCell : env.fromCell = sub.caller
  kind : env.kind = sub.kind
  toCell : env.toCell = sub.toCell
  msgType : env.msgType = sub.msgType
  body : env.body = sub.body
  fileRefs : env.fileRefs = sub.fileRefs

/-- The store holds the submission under the acknowledged identifiers. -/
structure Held (st : Store) (sub : Submission) (messageId : String) (askId : Option String) :
    Prop where
  envelope : ∃ env ∈ st.envelopes, env.messageId = messageId ∧ sub.Matches env ∧
    (sub.kind = .ask → ∃ ask, askId = some ask ∧ HasTicket st env ask)
  deliveries : ∀ recipient ∈ sub.recipients, HasDelivery st messageId recipient

theorem Held.mono (grows : Grows w w') (held : Held w.store sub messageId askId) :
    Held w'.store sub messageId askId := by
  obtain ⟨⟨env, member, same, agrees, ticket⟩, deliveries⟩ := held
  refine ⟨⟨env, grows.envelopes env member, same, agrees, fun kind => ?_⟩,
    fun r h => grows.deliveries _ _ (deliveries r h)⟩
  obtain ⟨ask, known, correlated, row, stored, id, message⟩ := ticket kind
  obtain ⟨row', stored', id', message', _⟩ := grows.asks row stored
  exact ⟨ask, known, correlated, row', stored', id'.trans id, message'.trans message⟩

def SendParams.submission (caller : String) (p : SendParams) : Submission :=
  ⟨caller, .send, some p.toCell, [p.toCell], p.msgType.getD .task, p.body, p.fileRefs⟩

def AskParams.submission (caller : String) (p : AskParams) : Submission :=
  ⟨caller, .ask, some p.toCell, [p.toCell], .ask, p.body, p.fileRefs⟩

def BroadcastParams.submission (caller : String) (included : List String) (p : BroadcastParams) :
    Submission :=
  ⟨caller, .broadcast, none, included, p.msgType.getD .note, p.body, p.fileRefs⟩

variable [Platform] {self : Actor}

/-- A successful submission replays the row bound to its key, or is a fresh one. -/
theorem deduped_meets {now : Snap} {replay : DedupeHit → Answer} {fresh : Act Answer}
    {Q : Answer → World → Prop}
    (met : now.store.binding caller key = none → Meets (Statement self) (·.At now) fresh Q) :
    Meets (Statement self) (·.At now) (deduped caller key body replay fresh) (fun a w =>
      (∃ row, now.store.binding caller key = some row ∧
        row.bodySha256 = Platform.sha256 body ∧ a = replay row.toDedupeHit ∧ w.At now) ∨
      (now.store.binding caller key = none ∧ Q a w)) := by
  refine (meets_query Statement.ofQuiet _).bind fun hit => meets_from fun w ⟨here, found⟩ =>
    ⟨_, here, ?_⟩
  cases hit with
  | some hit =>
    obtain ⟨row, bound, rfl⟩ := Option.map_eq_some_iff.mp found.symm
    simp only
    split
    · exact Meets.pure fun _ here => .inl ⟨row, bound, ‹_›, rfl, here⟩
    · exact Meets.throw
  | none =>
    have unbound : now.store.binding caller key = none := by simpa using found.symm
    exact (met unbound).weaken (fun _ h => h) fun _ _ h => .inr ⟨unbound, h⟩

/-- The identifier that a section draws is new to the tables it started from. -/
theorem new_envelope {w₀ : World} (inv : Inv w₀) (later : w₀.minted ≤ n) :
    (∀ e ∈ w₀.store.envelopes, e.messageId ≠ Platform.uuid n) ∧
    (∀ r, ∀ d ∈ w₀.store.deliveries, d.is (Platform.uuid n) r = false) := by
  have fresh := inv.fresh later (Nat.lt_succ_self n)
  refine ⟨fresh.envelope, fun r d h => ?_⟩
  have other := fresh.delivery d h
  simp [Delivery.is, other]

omit [Platform] in
private theorem matches_of_describes {draft : EnvelopeDraft} {sub : Submission}
    (described : draft.Describes env) (caller : draft.fromCell = sub.caller)
    (kind : draft.kind = sub.kind) (toCell : draft.toCell = sub.toCell)
    (msgType : draft.msgType = sub.msgType) (body : draft.body = sub.body)
    (fileRefs : draft.fileRefs = sub.fileRefs) : sub.Matches env :=
  ⟨described.fromCell.trans caller, described.kind.trans kind, described.toCell.trans toCell,
    described.msgType.trans msgType, described.body.trans body, described.fileRefs.trans fileRefs⟩

/-- A held submission may be bound to its key. -/
private theorem Held.bound {st : Store} {sub : Submission}
    (held : Held st sub messageId askId) (addressed : ∀ r, sub.toCell = some r → r ∈ sub.recipients) :
    ∀ createdAt, Bound st
      ⟨⟨messageId, askId, Platform.sha256 sub.body⟩, sub.caller, key, createdAt⟩ := by
  obtain ⟨⟨env, member, same, agrees, ticket⟩, deliveries⟩ := held
  refine fun _ => ⟨env, member, same, agrees.fromCell, by rw [agrees.body], fun r hr => ?_,
    fun kind => ?_⟩
  · rw [same]
    exact deliveries r (addressed r (agrees.toCell.symm.trans hr))
  · exact ticket (agrees.kind.symm.trans kind)

omit [Platform] in
/-- An envelope under a new identifier is found under it. -/
theorem envelope_added {st : Store} (envelopes : st.envelopes = rows ++ [env])
    (new : ∀ e ∈ rows, e.messageId ≠ env.messageId) : st.envelope env.messageId = some env := by
  have absent : rows.find? (fun e => e.messageId = env.messageId) = none := by simpa using new
  simp [Store.envelope, envelopes, List.find?_append, absent]

omit [Platform] in
/-- A message that has drawn the pair's number comes after all earlier ones. -/
theorem admits_numbered {w₀ : World} {now : Snap} (passing : Passing w₀)
    (drew : ((snap w₀).drawn minted).Drew caller recipient seq c) (number : env.seq = seq)
    (sender : env.fromCell = caller)
    (found : now.store.envelope env.messageId = some env) (counters : now.store.seqCounters = c)
    (history : passages now.history = passages w₀.history) (direct : env.kind ≠ .broadcast) :
    now.Admits env recipient := by
  subst number sender
  refine ⟨found, fun kind => absurd kind direct, fun _ => ⟨?_, fun earlier enqueued same => ?_⟩⟩
  · have counted : now.store.nextFor env.fromCell recipient = env.seq + 1 := by
      rw [← drew.counted, Store.nextFor, Store.nextFor, counters]
      rfl
    omega
  · rw [history] at enqueued
    have before := passing.numbered _ enqueued
    rw [drew.number]
    exact same ▸ before

theorem freshSend_meets {w₀ : World} (inv : Inv w₀) (passing : Passing w₀)
    (later : w₀.minted ≤ minted) (unbound : w₀.store.binding caller key = none) :
    Meets (Statement self) (·.At ((snap w₀).drawn minted)) (freshSend caller p key)
      (fun a w => ∃ messageId, a = .enqueued messageId ∧
        Held w.store (p.submission caller) messageId none) := by
  refine (nextSeq_meets _ _).bind fun seq => meets_from fun w ⟨c, drew, here⟩ => ⟨_, here, ?_⟩
  refine (buildEnvelopeWithCaps_meets _).bind fun env => meets_from fun w built => ?_
  obtain ⟨described, n, le, same, here⟩ := built
  obtain ⟨newEnvelope, newDelivery⟩ := new_envelope inv (Nat.le_trans later le)
  rw [← same] at newEnvelope newDelivery
  refine ⟨_, here, ?_⟩
  refine (insertEnvelope_meets ⟨n, Nat.lt_succ_self n, same⟩ newEnvelope).bind fun _ => ?_
  refine audit_meets.bind fun _ => ?_
  have stored : env ∈ w₀.store.envelopes ++ [env] := List.mem_append_right _ List.mem_cons_self
  refine (insertDelivery_meets (.inl ⟨_, List.mem_append_right _ List.mem_cons_self, rfl, rfl, rfl⟩)
    (newDelivery p.toCell) (admits_numbered passing drew described.seq described.fromCell
      (envelope_added rfl newEnvelope) rfl rfl (by simp [described.kind]))).bind fun _ => ?_
  have held : ∀ st : Store, st.envelopes = w₀.store.envelopes ++ [env] →
      st.deliveries = w₀.store.deliveries ++ [freshDelivery env.messageId p.toCell] →
      Held st (p.submission caller) env.messageId none := by
    intro st envelopes deliveries
    refine ⟨⟨env, envelopes ▸ stored, rfl,
      matches_of_describes described rfl rfl rfl rfl rfl rfl, fun kind => by cases kind⟩, ?_⟩
    intro r hr
    cases List.mem_singleton.mp hr
    exact ⟨_, deliveries ▸ List.mem_append_right _ List.mem_cons_self, rfl, rfl⟩
  refine (dedupeInsert_meets ((held _ rfl rfl).bound fun r hr => ?_) unbound).bind fun _ => ?_
  · cases hr; exact List.mem_cons_self
  · exact Meets.pure fun w ⟨_, here⟩ =>
      ⟨_, rfl, held w.store (by rw [here.store]; rfl) (by rw [here.store]; rfl)⟩

theorem freshAsk_meets {w₀ : World} (inv : Inv w₀) (passing : Passing w₀)
    (later : w₀.minted ≤ n₀) (unbound : w₀.store.binding caller key = none) :
    Meets (Statement self) (·.At ((snap w₀).drawn (n₀ + 1)))
      (freshAsk caller p key (Platform.uuid n₀))
      (fun a w => ∃ messageId, a = .pendingAsk (some (Platform.uuid n₀)) messageId ∧
        Held w.store (p.submission caller) messageId (some (Platform.uuid n₀))) := by
  refine (nextSeq_meets _ _).bind fun seq => meets_from fun w ⟨c, drew, here⟩ => ⟨_, here, ?_⟩
  refine (buildEnvelopeWithCaps_meets _).bind fun env => meets_from fun w built => ?_
  obtain ⟨described, n, le, same, here⟩ := built
  have less : n₀ < n := le
  obtain ⟨newEnvelope, newDelivery⟩ := new_envelope inv (Nat.le_trans later (Nat.le_of_lt less))
  rw [← same] at newEnvelope newDelivery
  refine ⟨_, here, ?_⟩
  refine (insertEnvelope_meets ⟨n, Nat.lt_succ_self n, same⟩ newEnvelope).bind fun _ => ?_
  refine audit_meets.bind fun _ => ?_
  refine audit_meets.bind fun _ => ?_
  have stored : env ∈ w₀.store.envelopes ++ [env] := List.mem_append_right _ List.mem_cons_self
  refine (insertDelivery_meets (.inl ⟨_, List.mem_append_left _ (List.mem_append_right _
    List.mem_cons_self), rfl, rfl, rfl⟩) (newDelivery p.toCell) (admits_numbered passing drew
      described.seq described.fromCell (envelope_added rfl newEnvelope) rfl rfl
      (by simp [described.kind]))).bind fun _ => ?_
  refine ((Silent.rfc3339After _).meets Statement.ofQuiet).bind fun expiresAt => ?_
  have newAsk : ∀ ask ∈ w₀.store.asks, ask.askId ≠ Platform.uuid n₀ :=
    (inv.fresh later (Nat.lt_succ_self n₀)).ask
  have opened : ∀ st : Store, st.envelopes = w₀.store.envelopes ++ [env] →
      Opened st ⟨Platform.uuid n₀, env.messageId, caller, p.toCell, expiresAt, .pending, none⟩ := by
    intro st envelopes
    refine ⟨env, envelopes ▸ stored, rfl, ?_⟩
    exact ⟨described.kind, described.askId, described.fromCell, described.toCell⟩
  refine (insertAsk_meets ⟨n₀, Nat.lt_succ_of_lt less, rfl⟩ newAsk (opened _ rfl)).bind fun _ => ?_
  have held : ∀ st : Store, st.envelopes = w₀.store.envelopes ++ [env] →
      st.deliveries = w₀.store.deliveries ++ [freshDelivery env.messageId p.toCell] →
      st.asks = w₀.store.asks ++ [⟨⟨Platform.uuid n₀, env.messageId, caller, p.toCell, expiresAt,
        .pending, none⟩, none⟩] →
      Held st (p.submission caller) env.messageId (some (Platform.uuid n₀)) := by
    intro st envelopes deliveries asks
    refine ⟨⟨env, envelopes ▸ stored, rfl, matches_of_describes described rfl rfl rfl rfl rfl rfl,
      fun _ => ⟨_, rfl, described.askId, _, asks ▸ List.mem_append_right _ List.mem_cons_self,
        rfl, rfl⟩⟩, ?_⟩
    intro r hr
    cases List.mem_singleton.mp hr
    exact ⟨_, deliveries ▸ List.mem_append_right _ List.mem_cons_self, rfl, rfl⟩
  refine (dedupeInsert_meets ((held _ rfl rfl rfl).bound fun r hr => ?_) unbound).bind fun _ => ?_
  · cases hr; exact List.mem_cons_self
  · exact Meets.pure fun w ⟨_, here⟩ => ⟨_, rfl, held w.store (by rw [here.store]; rfl)
      (by rw [here.store]; rfl) (by rw [here.store]; rfl)⟩

section Broadcast

/-- A message fanned out to its recipients, one after the other. -/
def Snap.addDeliveries (now : Snap) (env : Envelope) (recipients : List String) : Snap :=
  recipients.foldl (fun now recipient => now.addDelivery env recipient) now

omit [Platform] in
theorem addDeliveries_store (now : Snap) (env : Envelope) (recipients : List String) :
    (now.addDeliveries env recipients).store = { now.store with
      deliveries := now.store.deliveries ++ recipients.map (freshDelivery env.messageId) } := by
  induction recipients generalizing now with
  | nil => simp [Snap.addDeliveries]
  | cons r rest ih =>
    have tail := ih (now.addDelivery env r)
    simpa [Snap.addDeliveries, Snap.addDelivery] using tail

theorem insertDeliveries_meets {now : Snap} {env : Envelope} {recipients : List String}
    (audited : ∀ r ∈ recipients, FannedOut now.audit env.messageId r)
    (found : now.store.envelope env.messageId = some env)
    (fanned : env.kind = .broadcast) (first : env.seq = 0)
    (new : ∀ r ∈ recipients, ∀ d ∈ now.store.deliveries, d.is env.messageId r = false)
    (once : recipients.Nodup) :
    Meets (Statement self) (·.At now) (recipients.forM (insertDelivery env.messageId))
      (fun _ w => w.At (now.addDeliveries env recipients)) := by
  induction recipients generalizing now with
  | nil => exact Meets.pure fun w here => here
  | cons r rest ih =>
    obtain ⟨absent, once⟩ := List.nodup_cons.mp once
    have admits : now.Admits env r :=
      ⟨found, fun _ => first, fun direct => absurd fanned direct⟩
    refine Meets.bind (insertDelivery_meets (.inr (audited r List.mem_cons_self))
      (new r List.mem_cons_self) admits) fun _ => ?_
    refine ih (fun r' h => audited r' (List.mem_cons_of_mem _ h)) found ?_ once
    intro r' h d member
    rcases List.mem_append.mp member with old | added
    · exact new r' (List.mem_cons_of_mem _ h) d old
    · cases List.mem_singleton.mp added
      have other : r ≠ r' := fun same => absent (same ▸ h)
      simp [freshDelivery, Delivery.is, other]

theorem auditDenied_meets {now : Snap} {messageId caller : String} {denied : List String} :
    Meets (Statement self) (·.At now) (denied.forM fun d =>
      audit "protected_access_denied" (some messageId) (some caller) (some d) "denied" none)
      (fun _ w => ∃ chain, w.At { now with audit := chain }) := by
  induction denied generalizing now with
  | nil => exact Meets.pure fun w here => ⟨_, here⟩
  | cons d rest ih => exact Meets.bind audit_meets fun _ => ih.weaken (fun _ h => h) fun _ _ h => h

theorem freshBroadcast_meets {w₀ : World} (inv : Inv w₀) (later : w₀.minted ≤ minted)
    (unbound : w₀.store.binding caller key = none) (once : included.Nodup) :
    Meets (Statement self) (·.At ((snap w₀).drawn minted))
      (freshBroadcast caller p included denied key)
      (fun a w => ∃ messageId, a = .fannedOut messageId included ∧
        Held w.store (p.submission caller included) messageId none) := by
  refine (buildEnvelopeWithCaps_meets _).bind fun env => meets_from fun w built => ?_
  obtain ⟨described, n, le, same, here⟩ := built
  obtain ⟨newEnvelope, newDelivery⟩ := new_envelope inv (Nat.le_trans later le)
  rw [← same] at newEnvelope newDelivery
  refine ⟨_, here, ?_⟩
  refine (insertEnvelope_meets ⟨n, Nat.lt_succ_self n, same⟩ newEnvelope).bind fun _ => ?_
  refine auditDenied_meets.bind fun _ => meets_from fun w ⟨chain, here⟩ => ⟨_, here, ?_⟩
  refine audit_meets.bind fun _ => ?_
  have stored : env ∈ w₀.store.envelopes ++ [env] := List.mem_append_right _ List.mem_cons_self
  refine (insertDeliveries_meets (fun r h => ⟨_, List.mem_append_right _ List.mem_cons_self, rfl,
    rfl, _, _, rfl, h⟩) (envelope_added rfl newEnvelope) described.kind described.seq
    (fun r _ => newDelivery r) once).bind fun _ => ?_
  have held : ∀ st : Store, st.envelopes = w₀.store.envelopes ++ [env] →
      st.deliveries = w₀.store.deliveries ++ included.map (freshDelivery env.messageId) →
      Held st (p.submission caller included) env.messageId none := by
    intro st envelopes deliveries
    refine ⟨⟨env, envelopes ▸ stored, rfl,
      matches_of_describes described rfl rfl rfl rfl rfl rfl, fun kind => by cases kind⟩, ?_⟩
    intro r hr
    exact ⟨freshDelivery env.messageId r,
      deliveries ▸ List.mem_append_right _ (List.mem_map.mpr ⟨r, hr, rfl⟩), rfl, rfl⟩
  refine (dedupeInsert_meets (fun createdAt => ?_) ?_).bind fun _ => Meets.pure
    fun w ⟨_, here⟩ => ⟨_, rfl, held w.store ?_ ?_⟩
  · rw [addDeliveries_store]
    exact (held _ rfl rfl).bound (fun r hr => by cases hr) createdAt
  · rw [addDeliveries_store]
    exact unbound
  · rw [here.store]
    exact congrArg Store.envelopes (addDeliveries_store _ _ _)
  · rw [here.store]
    exact congrArg Store.deliveries (addDeliveries_store _ _ _)

end Broadcast
end Crewd.Bus
