import Crewd.Bus.Submission
import Crewd.Bus.Moving

/-! Every handler and the delivery loop, section by section: from any state in
which the invariants hold they take elementary steps only, and what they rely on
between two sections survives whatever the other threads do. -/
namespace Crewd.Bus
open Autocommit Concurrent Table

variable [Platform] {self : Actor} {α β : Type}

section Free

/-- Made of elementary steps from any state. -/
def Free (self : Actor) (m : Act α) : Prop :=
  Meets (Statement self) (fun _ => True) m (fun _ _ => True)

theorem Free.of_silent {m : Act α} (silent : Silent m) : Free self m :=
  silent.always Statement.ofQuiet

theorem Free.forM {xs : List β} {f : β → Act PUnit} (each : ∀ x, Free self (f x)) :
    Free self (xs.forM f) := Meets.forM fun x _ => each x

theorem Free.ignore {m : Act α} (free : Free self m) : Free self (Action.ignore m) :=
  Meets.ignore free fun _ _ _ _ => trivial

theorem Free.audit {kind outcome : String} {messageId fromCell toCell : Option String}
    {detail : Option Json} :
    Free self (audit kind messageId fromCell toCell outcome detail) :=
  meets_from fun w _ => ⟨_, w.at_snapshot, audit_meets.weaken (fun _ h => h) fun _ _ _ => trivial⟩

omit [Platform] in
theorem deliveryState_silent (messageId recipient : String) :
    Silent (deliveryState messageId recipient) := by
  refine .bind (.query _) fun row => ?_
  cases row with
  | none => exact .throw _
  | some d => exact .pure _

omit [Platform] in
theorem hasConsumed_silent (messageId recipient : String) :
    Silent (hasConsumed messageId recipient) := by
  refine .bind (.outcome (deliveryState_silent _ _)) fun r => ?_
  cases r <;> exact .pure _

end Free

/-- The handler keeps to the elementary steps of its actor. -/
abbrev Follows (self : Actor) (P : World → Prop) (h : Handler α) (Q : α → World → Prop) : Prop :=
  Runs Good (others Steps self) (Statement self) P h Q

/-- Nothing to remember between the sections. -/
abbrev Plain (self : Actor) (h : Handler α) : Prop :=
  Follows self (fun _ => True) h (fun _ _ => True)

section Plain

theorem Plain.locked {m : Act α}
    (met : ∀ w, Good w → Meets (Statement self) (·.At (snap w)) m (fun _ _ => True)) :
    Plain self (Crewd.locked m) :=
  Runs.locked Statement.ofQuiet (fun _ _ _ _ _ => trivial) fun w good _ => met w good

theorem Plain.good {m : Act α} (met : Meets (Statement self) Good m (fun _ _ => True)) :
    Plain self (Crewd.locked m) :=
  .locked fun w good => met.weaken (fun _ here => good_unread w _
    ⟨here.store, here.audit, here.memory, here.history, here.minted⟩ good) fun _ _ h => h

theorem Plain.free {m : Act α} (free : Free self m) : Plain self (Crewd.locked m) :=
  .locked fun _ _ => free.weaken (fun _ _ => trivial) fun _ _ _ => trivial

theorem Plain.silent {m : Act α} (silent : Silent m) : Plain self (Crewd.locked m) :=
  .free (.of_silent silent)

theorem Plain.raise {r : Except BusError α} : Plain self (Crewd.raise r) :=
  Runs.raise fun _ _ _ _ _ => trivial

theorem Plain.pure {a : α} : Plain self (Pure.pure a : Handler α) := Runs.pure fun _ _ _ => trivial

theorem Plain.throw {e : BusError} : Plain self (MonadExcept.throw e : Handler α) := Runs.throw

theorem Plain.bind {h : Handler α} {f : α → Handler β} (first : Plain self h)
    (rest : ∀ a, Plain self (f a)) : Plain self (h >>= f) := Runs.bind first rest

theorem Plain.forM {xs : List β} {f : β → Handler PUnit} (each : ∀ x, Plain self (f x)) :
    Plain self (xs.forM f) := Runs.forM fun x _ => each x

end Plain

section Gates

theorem currentAcl_plain : Plain self currentAcl := .silent (.readMemory _)

theorem checkCapability_plain (caller : String) (cap : Capability) :
    Plain self (checkCapability caller cap) := .bind currentAcl_plain fun _ => .raise

theorem checkMsgType_plain (caller : String) (msgType : MsgType) :
    Plain self (checkMsgType caller msgType) := by
  refine .bind currentAcl_plain fun acl => ?_
  cases msgType <;> exact .raise

/-- A refusal never answers, so any postcondition will do. -/
theorem refuse_follows {kind caller outcome : String} {target : Option String} {e : BusError}
    {P : World → Prop} {Q : α → World → Prop} :
    Follows self P (refuse kind caller target outcome e : Handler α) Q :=
  Runs.bind (Q := fun _ _ => True) ((Plain.free .audit).weaken fun _ _ _ => trivial)
    fun _ => Runs.throw

theorem refuse_plain {kind caller outcome : String} {target : Option String} {e : BusError} :
    Plain self (refuse kind caller target outcome e : Handler α) := refuse_follows

theorem authorizeOutbound_plain (caller target : String) (cap : Capability) (via : ReachVia) :
    Plain self (authorizeOutbound caller target cap via) := by
  refine .bind currentAcl_plain fun acl => .bind .raise fun _ => ?_
  split
  · split
    · exact .pure
    · exact refuse_plain
  · exact .throw

theorem writeMemory_free {f : Memory → α × Memory}
    (keeps : ∀ m, (f m).2.acl = m.acl ∧ (f m).2.askWakers = m.askWakers) :
    Free self (writeMemory f) :=
  Meets.step (fun w _ => .memory _ (keeps w.memory).1 (keeps w.memory).2) fun _ _ => trivial

theorem enforceQuota_plain (caller : String) (target : Option String)
    {f : QuotaTracker → Except BusError Unit × QuotaTracker} :
    Plain self (enforceQuota caller target f) := by
  refine .bind (.free (writeMemory_free fun m => ⟨rfl, rfl⟩)) fun r => ?_
  cases r with
  | ok u => exact .pure
  | error e => exact refuse_plain

theorem admitOutbound_plain (caller target : String) (cap : Capability) (units : Nat) :
    Plain self (admitOutbound caller target cap units) := by
  refine .bind (.silent (.query _)) fun _ => .bind (enforceQuota_plain _ _) fun _ => ?_
  refine .bind (.silent .nowMs) fun _ => .bind (enforceQuota_plain _ _) fun _ => ?_
  exact enforceQuota_plain _ _

theorem checkAttachFiles_plain (caller : String) (fileRefs : List String) :
    Plain self (checkAttachFiles caller fileRefs) := by
  unfold checkAttachFiles
  split
  · exact .pure
  · exact checkCapability_plain _ _

end Gates

section Submitting

theorem submitSend_meets {w : World} (good : Good w) :
    Meets (Statement self) (·.At (snap w)) (submitSend caller p) (fun _ _ => True) := by
  refine (keyOrNew_meets _).bind fun key => meets_from fun _ ⟨minted, later, here⟩ => ⟨_, here, ?_⟩
  exact (deduped_meets fun unbound => freshSend_meets good.inv good.passing later
    unbound).weaken (fun _ h => h)
    fun _ _ _ => trivial

theorem submitAsk_meets {w : World} (good : Good w) :
    Meets (Statement self) (·.At (snap w)) (submitAsk caller p) (fun _ _ => True) := by
  refine (keyOrNew_meets _).bind fun key => meets_from fun _ ⟨minted, later, here⟩ => ⟨_, here, ?_⟩
  refine (meets_newUuidv7 Statement.ofQuiet).bind fun askId => meets_from fun _ drawn => ?_
  obtain ⟨n, le, rfl, here⟩ := drawn
  exact ⟨_, here, (deduped_meets fun unbound =>
    freshAsk_meets good.inv good.passing (Nat.le_trans later le) unbound).weaken
      (fun _ h => h) fun _ _ _ => trivial⟩

theorem submitBroadcast_meets {w : World} (inv : Inv w) (once : included.Nodup) :
    Meets (Statement self) (·.At (snap w)) (submitBroadcast caller p included denied)
      (fun _ _ => True) := by
  refine (keyOrNew_meets _).bind fun key => meets_from fun _ ⟨minted, later, here⟩ => ⟨_, here, ?_⟩
  exact (deduped_meets fun unbound => freshBroadcast_meets inv later unbound once).weaken
    (fun _ h => h) fun _ _ _ => trivial

theorem handleSend_plain (caller : String) (params : Params SendParams) :
    Plain self (handleSend caller params) := by
  refine .bind .raise fun _ => .bind .raise fun p => .bind (checkMsgType_plain _ _) fun _ => ?_
  refine .bind (authorizeOutbound_plain _ _ _ _) fun _ => .bind .raise fun _ => .bind .raise fun _ => ?_
  refine .bind (checkAttachFiles_plain _ _) fun _ => .bind (admitOutbound_plain _ _ _ _) fun _ => ?_
  exact .locked fun _ good => submitSend_meets good

theorem handleAsk_plain (caller : String) (params : Params AskParams) :
    Plain self (handleAsk caller params) := by
  refine .bind .raise fun _ => .bind .raise fun p => ?_
  refine .bind (authorizeOutbound_plain _ _ _ _) fun _ => .bind .raise fun _ => .bind .raise fun _ => ?_
  refine .bind (checkAttachFiles_plain _ _) fun _ => .bind (admitOutbound_plain _ _ _ _) fun _ => ?_
  refine .bind (.silent (.query _)) fun _ => .bind (enforceQuota_plain _ _) fun _ => ?_
  exact .locked fun _ good => submitAsk_meets good

theorem handleBroadcast_plain (caller : String) (params : Params BroadcastParams) :
    Plain self (handleBroadcast caller params) := by
  refine .bind .raise fun _ => .bind .raise fun p => .bind (checkMsgType_plain _ _) fun _ => ?_
  refine .bind .raise fun _ => .bind .raise fun _ => .bind (checkAttachFiles_plain _ _) fun _ => ?_
  refine .bind currentAcl_plain fun acl => .bind .raise fun _ => ?_
  refine .bind (.silent .nowMs) fun _ =>
    .bind (enforceQuota_plain _ _) fun _ => .bind (enforceQuota_plain _ _) fun _ => ?_
  exact .locked fun _ good => submitBroadcast_meets good.inv (acl.recipientsForBroadcast_nodup caller)

end Submitting

section Reply

/-- The ask that a handler has read is still there, with the same columns. -/
def Known (ask : AskRow) (w : World) : Prop :=
  ∃ row ∈ w.store.asks, row.askId = ask.askId ∧ row.messageId = ask.messageId ∧
    row.fromCell = ask.fromCell ∧ row.toCell = ask.toCell

omit [Platform] in
theorem Known.mono (known : Known ask w) (grows : Grows w w') : Known ask w' := by
  obtain ⟨row, member, same⟩ := known
  obtain ⟨row', member', id, message, sender, target, _⟩ := grows.asks row member
  exact ⟨row', member', id.trans same.1, message.trans same.2.1, sender.trans same.2.2.1,
    target.trans same.2.2.2⟩

/-- What every step keeps, the other threads keep. -/
theorem stable_of_grows {P : World → Prop} (mono : ∀ w w', Grows w w' → P w → P w') :
    Stable (others Steps self) P := fun _ _ ⟨_, _, _, steps⟩ holds => mono _ _ steps.grows holds

omit [Platform] in
theorem ask_of_find {st : Store} (found : st.ask askId = some ask) :
    ask ∈ st.asks ∧ ask.askId = askId :=
  ⟨List.mem_of_find?_eq_some found, by simpa using List.find?_some found⟩

theorem findAsk_known (askId : String) :
    Follows self (fun _ => True) (locked (findAsk askId))
      (fun ask w => Known ask w ∧ ask.askId = askId) := by
  refine Runs.locked Statement.ofQuiet (fun ask => ?_) fun w _ _ => ?_
  · exact stable_of_grows fun _ _ grows ⟨known, same⟩ => ⟨known.mono grows, same⟩
  · refine (meets_query Statement.ofQuiet _).bind fun row => meets_from fun _ ⟨here, found⟩ =>
      ⟨_, here, ?_⟩
    cases row with
    | none => exact Meets.throw
    | some ask =>
      refine Meets.pure fun w' here => ?_
      obtain ⟨row, stored, rfl⟩ := Option.map_eq_some_iff.mp found.symm
      obtain ⟨member, same⟩ := ask_of_find stored
      exact ⟨⟨row, by rw [here.store]; exact member, rfl, rfl, rfl, rfl⟩, same⟩

theorem replyPrecheck_meets {now : Snap} (askId : String) (reply : Envelope) :
    Meets (Statement self) (·.At now) (replyPrecheck askId reply) (fun outcome w => w.At now ∧
      (outcome = .recorded → ∃ ask, now.store.ask askId = some ask ∧ ask.state = .pending)) := by
  refine (meets_query Statement.ofQuiet _).bind fun row => meets_from fun _ ⟨here, found⟩ =>
    ⟨_, here, ?_⟩
  cases row with
  | none => exact Meets.pure fun _ here => ⟨here, fun h => by cases h⟩
  | some ask =>
    simp only
    split
    · split <;> exact Meets.pure fun _ here => ⟨here, fun h => by cases h⟩
    · rename_i pending
      exact Meets.pure fun _ here => ⟨here, fun _ => ⟨ask, found.symm, by simpa using pending⟩⟩

def Snap.answer (now : Snap) (askId : String) (reply : Envelope) : Snap := { now with
  store := now.store.updateAsk askId (Ask.answeredBy reply)
  history := .committed askId (some reply.messageId) :: now.history }

theorem commitReply_meets {now : Snap} {reply : Envelope}
    (answers : ∀ w : World, w.At now → Answers w askId reply) :
    Meets (Statement self) (·.At now) (commitReply askId reply)
      (fun _ w => w.At (now.answer askId reply)) := by
  refine (meets_mayFail Statement.ofQuiet).bind fun _ => Meets.step
    (fun w here => .answered askId reply (answers w here)) fun w here => ?_
  refine ⟨?_, here.audit, here.memory, ?_, here.minted⟩
  · show w.store.updateAsk _ _ = _
    rw [here.store]; rfl
  · show _ :: w.history = _
    rw [here.history]; rfl

theorem submitReply_meets {w : World} (inv : Inv w) (passing : Passing w) (known : Known ask w)
    (same : ask.askId = p.askId) (responder : ask.toCell = caller) :
    Meets (Statement self) (·.At (snap w)) (submitReply caller p ask) (fun _ _ => True) := by
  refine (keyOrNew_meets _).bind fun key => meets_from fun _ ⟨minted, later, here⟩ => ⟨_, here, ?_⟩
  refine (nextSeq_meets _ _).bind fun seq => meets_from fun _ ⟨c, drew, here⟩ => ⟨_, here, ?_⟩
  refine (buildEnvelopeWithCaps_meets _).bind fun env => meets_from fun _ built => ?_
  obtain ⟨described, n, le, drawn, here⟩ := built
  refine ⟨_, here, (replyPrecheck_meets _ _).bind fun outcome => meets_from fun _ ⟨here, found⟩ =>
    ⟨_, here, ?_⟩⟩
  cases outcome with
  | duplicateIdentical messageId => exact Meets.pure fun _ _ => trivial
  | conflict => exact Meets.pure fun _ _ => trivial
  | recorded =>
    obtain ⟨row, found, pending⟩ := found rfl
    obtain ⟨member, id⟩ := ask_of_find found
    obtain ⟨row', member', id', message, sender, target⟩ := known
    have unique : row' = row := inv.ask_unique member' member (by rw [id', same, id])
    subst unique
    obtain ⟨newEnvelope, newDelivery⟩ := new_envelope inv (Nat.le_trans later le)
    rw [← drawn] at newEnvelope newDelivery
    refine Meets.bind (Q := fun _ _ => True) ?_ fun _ => Meets.pure fun _ _ => trivial
    refine (insertEnvelope_meets ⟨n, Nat.lt_succ_self n, drawn⟩ newEnvelope).bind fun _ => ?_
    have stored : env ∈ w.store.envelopes ++ [env] := List.mem_append_right _ List.mem_cons_self
    have enqueued : Enqueued (w.audit ++ [⟨"enqueued", some env.messageId, some caller,
        some ask.fromCell, "ok", none⟩]) env.messageId ask.fromCell :=
      ⟨_, List.mem_append_right _ List.mem_cons_self, rfl, rfl, rfl⟩
    refine audit_meets.bind fun _ => (commitReply_meets fun w' here => ?_).bind fun _ => ?_
    · exact {
        ticket := ⟨row', by rw [here.store]; exact member, id, pending,
          by rw [target, responder, described.fromCell],
          by rw [described.toCell, sender], by rw [here.audit, sender]; exact enqueued⟩
        stored := by rw [here.store]; exact stored
        kind := described.kind
        correlated := described.askId }
    · exact (insertDelivery_meets (.inl enqueued) (newDelivery _) (admits_numbered passing drew
        described.seq described.fromCell (envelope_added rfl newEnvelope) rfl rfl
        (by simp [described.kind]))).weaken
        (fun _ h => h) fun _ _ _ => trivial

theorem notifyAsker_free (askId : String) : Free self (notifyAsker askId) :=
  Meets.step (fun _ _ => .notified askId) fun _ _ => trivial

theorem handleReply_plain (caller : String) (params : Params ReplyParams) :
    Plain self (handleReply caller params) := by
  refine .bind .raise fun _ => .bind .raise fun p => .bind .raise fun _ => .bind .raise fun _ => ?_
  refine .bind (checkAttachFiles_plain _ _) fun _ => .bind (checkCapability_plain _ _) fun _ => ?_
  refine Runs.bind (findAsk_known _) fun ask => ?_
  split
  · exact Runs.throw
  · rename_i responder
    refine Runs.bind (Q := fun _ _ => True) ?_ fun outcome => ?_
    · refine Runs.locked Statement.ofQuiet (fun _ _ _ _ _ => trivial) fun w good known => ?_
      exact submitReply_meets good.inv good.passing known.1 known.2 (by simpa using responder)
    · obtain ⟨outcome, messageId⟩ := outcome
      cases outcome with
      | recorded => exact Plain.bind (.free (notifyAsker_free _)) fun _ => .pure
      | duplicateIdentical messageId => exact Plain.pure
      | conflict => exact refuse_plain

end Reply

section Reading

theorem handleInbox_plain (caller : String) (params : Params InboxParams) :
    Plain self (handleInbox caller params) := by
  refine .bind .raise fun _ => .bind .raise fun p => .bind (checkCapability_plain _ _) fun _ => ?_
  exact .bind (.good (inbox_meets _ _)) fun _ => .pure

theorem handleReportToolCorrelation_plain (caller : String)
    (params : Params ReportCorrelationParams) :
    Plain self (handleReportToolCorrelation caller params) := by
  refine .bind .raise fun _ => .bind .raise fun p => .bind (.silent (hasConsumed_silent _ _)) fun has => ?_
  split
  · refine .bind (.silent (.query _)) fun env => ?_
    cases env with
    | none => exact .throw
    | some env => exact .bind (.free .audit) fun _ => .pure
  · exact .throw

theorem handleOpStatus_plain (caller : String) (keys : List String) :
    Plain self (handleOpStatus caller keys) := by
  refine .bind .raise fun _ => .bind (checkCapability_plain _ _) fun _ => .bind (.silent ?_) fun _ => .pure
  exact .bind (.query _) fun _ => .bind (.query _) fun _ => .pure _

end Reading

end Crewd.Bus
