import Crewd.Bus.Denials
import Crewd.Bus.Leases
import Crewd.Bus.Pending
import Crewd.Bus.Replies

/-! Rejections and the audit chain agree. A submitting call appends the one event that
belongs to its rejection, none when it repeats an earlier submission, and the events of
its kind when it has written; only in the last case are rows added. -/
namespace Crewd.Bus
open Autocommit Concurrent

section Telling

/-- Nothing is added to the tables that a submission writes to. -/
structure SameRows (st st' : Store) : Prop where
  envelopes : st'.envelopes = st.envelopes
  deliveries : st'.deliveries = st.deliveries
  asks : st'.asks = st.asks
  dedupe : st'.dedupe = st.dedupe

theorem SameRows.of_eq (same : st' = st) : SameRows st st' := by
  subst same
  exact ⟨rfl, rfl, rfl, rfl⟩

/-- The events that the call appended, section by section. -/
inductive Appended : List BusStage → List AuditEventDraft → Prop where
  | nil : Appended [] []
  | concat : Appended stages events → stage.after.audit = stage.before.audit ++ own →
      Appended (stages ++ [stage]) (events ++ own)

/-- These events and no row. -/
structure Only (stages : List BusStage) (events : List AuditEventDraft) : Prop where
  appended : Appended stages events
  rows : ∀ stage ∈ stages, SameRows stage.before.store stage.after.store

theorem Only.concat (only : Only stages events)
    (audit : stage.after.audit = stage.before.audit ++ own)
    (rows : SameRows stage.before.store stage.after.store) :
    Only (stages ++ [stage]) (events ++ own) := by
  refine ⟨.concat only.appended audit, fun s member => ?_⟩
  rcases List.mem_append.mp member with old | new
  · exact only.rows s old
  · rw [List.mem_singleton.mp new]
    exact rows

/-- A section without event and row. -/
theorem Only.unwritten (only : Only stages events) (audit : stage.after.audit = stage.before.audit)
    (rows : SameRows stage.before.store stage.after.store) : Only (stages ++ [stage]) events := by
  have told : Only (stages ++ [stage]) (events ++ []) :=
    only.concat (by rw [audit, List.append_nil]) rows
  rwa [List.append_nil] at told

/-- A section that only reads. -/
theorem Only.still (only : Only stages events) (audit : stage.after.audit = stage.before.audit)
    (store : stage.after.store = stage.before.store) : Only (stages ++ [stage]) events :=
  only.unwritten audit (.of_eq store)

/-- One event of the kind, and no row. -/
def Rejected (kind : String) (stages : List BusStage) : Prop :=
  ∃ event, event.kind = kind ∧ Only stages [event]

/-- The caller and the target of a unicast submission. -/
def Request.unicast : Request → Option (String × String)
  | .send caller ⟨_, .ok p⟩ => some (caller, p.toCell)
  | .ask caller ⟨_, .ok p⟩ => some (caller, p.toCell)
  | _ => none

/-- What an ACL that knows the caller answers when the target is protected from it. -/
def ReachDenied (caller target : String) (e : BusError) : Prop :=
  ∃ (acl : Acl) (via : ReachVia), acl.get caller ≠ none ∧
    acl.checkReach caller target via = .error e

/-- What a call that was rejected has left in the chain. -/
structure Request.Told (request : Request) (stages : List BusStage) (e : BusError) : Prop where
  quota : ∀ text, e = .quota text → Rejected "quota_exceeded" stages
  replyExists : ∀ text, e = .replyExists text → Rejected "duplicate_reply" stages
  dup : ∀ text, e = .dup text → Only stages []
  denied : ∀ caller target, request.unicast = some (caller, target) →
    ReachDenied caller target e → Rejected "protected_access_denied" stages

def enqueuedEvent (messageId caller target : String) : AuditEventDraft :=
  ⟨"enqueued", some messageId, some caller, some target, "ok", none⟩

def askOpenedEvent (messageId caller target askId : String) : AuditEventDraft :=
  ⟨"ask_opened", some messageId, some caller, some target, "ok",
    some (.obj [("ask_id", .str askId)])⟩

def deniedEvent (messageId caller target : String) : AuditEventDraft :=
  ⟨"protected_access_denied", some messageId, some caller, some target, "denied", none⟩

def fannedOutEvent (messageId caller : String) (included denied : List String) : AuditEventDraft :=
  ⟨"broadcast_fanned_out", some messageId, some caller, none, "ok",
    some (fanoutDetail included denied)⟩

/-- The answer to a fresh submission, and its events. -/
inductive Decision.Fresh : Decision → Answer → List AuditEventDraft → Prop where
  | send (caller m : String) (p : SendParams) :
      Fresh (.send caller p) (.enqueued m) [enqueuedEvent m caller p.toCell]
  | ask (caller m askId : String) (p : AskParams) :
      Fresh (.ask caller p) (.pendingAsk (some askId) m)
        [enqueuedEvent m caller p.toCell, askOpenedEvent m caller p.toCell askId]
  | broadcast (caller m : String) (p : BroadcastParams) (acl : Acl)
      (included denied : List String) :
      acl.recipientsForBroadcast caller = (included, denied) →
      Fresh (.broadcast caller p acl) (.fannedOut m included)
        (denied.map (deniedEvent m caller) ++ [fannedOutEvent m caller included denied])

variable [Platform]

/-- What an accepted call has left: nothing when its last section found the key bound, and
otherwise the events of a fresh submission. -/
def Decision.Logged (d : Decision) (stages : List BusStage) (a : Answer) : Prop :=
  ∃ earlier last, stages = earlier ++ [last] ∧
    ((∃ row, d.bound last.before = some row) ∧ Only stages [] ∨
      d.bound last.before = none ∧ ∃ events, d.Fresh a events ∧ Appended stages events)

/-- What an accepted call has left in the chain. -/
def Request.Answered (stages : List BusStage) (a : Answer) : Request → Prop
  | .send caller ⟨_, .ok p⟩ => (Decision.send caller p).Logged stages a
  | .ask caller ⟨_, .ok p⟩ => (Decision.ask caller p).Logged stages a
  | .broadcast caller ⟨_, .ok p⟩ => ∃ stage ∈ stages,
      (Decision.broadcast caller p stage.before.memory.acl).Logged stages a
  | .reply caller _ =>
      (∃ m asker, a = .recorded m ∧ Appended stages [enqueuedEvent m caller asker]) ∨
        ∃ m, a = .duplicate m ∧ Only stages []
  | _ => False

/-- The call and the chain agree. -/
def Request.Agrees (request : Request) (stages : List BusStage) : Except BusError Answer → Prop
  | .ok a => request.Answered stages a
  | .error e => request.Told stages e

end Telling

section Writing
variable {chain : List AuditEventDraft}

/-- Any step at all. -/
abbrev Anyhow (_ _ : World) : Prop := True

theorem anyhow {P : World → Prop} {m : Act α} {Q : α → World → Prop} {R : World → World → Prop}
    (met : Meets R P m Q) : Meets Anyhow P m Q := met.mono fun _ _ _ => trivial

theorem silent_mute {m : Act α} (silent : Silent m) :
    Meets Anyhow (·.audit = chain) m (fun _ w => w.audit = chain) :=
  fun w here => ⟨.single trivial, fun _ _ => (silent w).audit.trans here⟩

theorem update_mute {f : World → World} (keeps : ∀ w, (f w).audit = w.audit) :
    Meets Anyhow (·.audit = chain) (mayFail >>= fun _ => Action.step fun w => ((), f w))
      (fun _ w => w.audit = chain) :=
  (silent_mute .mayFail).bind fun _ => Meets.step (fun _ _ => trivial) fun w here =>
    (keeps w).trans here

theorem execute_mute (f : Store → Store) :
    Meets Anyhow (·.audit = chain) (execute f) (fun _ w => w.audit = chain) :=
  update_mute fun _ => rfl

theorem audit_tells (kind : String) (messageId fromCell toCell : Option String) (outcome : String)
    (detail : Option Json) : Meets Anyhow (·.audit = chain)
      (audit kind messageId fromCell toCell outcome detail) (fun _ w =>
        w.audit = chain ++ [⟨kind, messageId, fromCell, toCell, outcome, detail⟩]) := by
  refine meets_from fun w here => ⟨_, w.at_snapshot, ?_⟩
  refine (meets_audit (fun _ _ _ => trivial) fun _ _ => trivial).weaken (fun _ h => h) ?_
  intro _ w' there
  rw [there.audit, World.snapshot, here]

theorem audits_tell {xs : List β} (event : β → AuditEventDraft) :
    Meets Anyhow (·.audit = chain) (xs.forM fun x => audit (event x).kind (event x).messageId
      (event x).fromCell (event x).toCell (event x).outcome (event x).detail)
      (fun _ w => w.audit = chain ++ xs.map event) := by
  induction xs generalizing chain with
  | nil => exact Meets.pure fun w here => by rw [here, List.map_nil, List.append_nil]
  | cons x rest ih =>
    refine (audit_tells _ _ _ _ _ _).bind fun _ => ih.weaken (fun _ h => h) fun _ w there => ?_
    rw [there, List.append_assoc]
    rfl

section Sections
variable [Platform]

theorem nextSeq_mute (fromCell toCell : String) :
    Meets Anyhow (·.audit = chain) (nextSeq fromCell toCell) (fun _ w => w.audit = chain) := by
  refine meets_from fun w here => ⟨_, w.at_snapshot, ?_⟩
  refine (anyhow (@nextSeq_meets _ .main _ fromCell toCell)).weaken (fun _ h => h) ?_
  rintro seq w' ⟨c, _, there⟩
  exact there.audit.trans here

theorem buildEnvelopeWithCaps_mute (draft : EnvelopeDraft) :
    Meets Anyhow (·.audit = chain) (buildEnvelopeWithCaps draft) (fun _ w => w.audit = chain) := by
  refine Meets.bind (silent_mute ?_) fun env => Meets.bind
    (silent_mute (.readMemory _)) fun acl => Meets.pure fun _ here => here
  exact .bind .newUuidv7 fun _ => .bind .nowRfc3339 fun _ => .bind (.rfc3339After _) fun _ =>
    .pure _

omit [Platform] in
theorem dedupeInsert_mute (caller key messageId hash : String) (askId : Option String) :
    Meets Anyhow (·.audit = chain) (dedupeInsert caller key messageId askId hash)
      (fun _ w => w.audit = chain) :=
  (silent_mute .nowRfc3339).bind fun _ => execute_mute _

omit [Platform] in
theorem insertDelivery_mute (messageId recipient : String) :
    Meets Anyhow (·.audit = chain) (insertDelivery messageId recipient)
      (fun _ w => w.audit = chain) := update_mute fun _ => rfl

theorem commitReply_mute (askId : String) (reply : Envelope) :
    Meets Anyhow (·.audit = chain) (commitReply askId reply) (fun _ w => w.audit = chain) :=
  update_mute fun _ => rfl

theorem freshSend_tells (caller key : String) (p : SendParams) :
    Meets Anyhow (·.audit = chain) (freshSend caller p key) (fun a w => ∃ events,
      (Decision.send caller p).Fresh a events ∧ w.audit = chain ++ events) := by
  refine (nextSeq_mute _ _).bind fun seq => (buildEnvelopeWithCaps_mute _).bind fun env => ?_
  refine (execute_mute _).bind fun _ => (audit_tells _ _ _ _ _ _).bind fun _ => ?_
  refine (insertDelivery_mute _ _).bind fun _ => (dedupeInsert_mute _ _ _ _ _).bind fun _ => ?_
  exact Meets.pure fun w here => ⟨_, .send caller env.messageId p, here⟩

theorem freshAsk_tells (caller key askId : String) (p : AskParams) :
    Meets Anyhow (·.audit = chain) (freshAsk caller p key askId) (fun a w => ∃ events,
      (Decision.ask caller p).Fresh a events ∧ w.audit = chain ++ events) := by
  refine (nextSeq_mute _ _).bind fun seq => (buildEnvelopeWithCaps_mute _).bind fun env => ?_
  refine (execute_mute _).bind fun _ => (audit_tells _ _ _ _ _ _).bind fun _ => ?_
  refine (audit_tells _ _ _ _ _ _).bind fun _ => (insertDelivery_mute _ _).bind fun _ => ?_
  refine (silent_mute (.rfc3339After _)).bind fun expiresAt => (execute_mute _).bind fun _ => ?_
  refine (dedupeInsert_mute _ _ _ _ _).bind fun _ => Meets.pure fun w here => ?_
  refine ⟨_, .ask caller env.messageId askId p, here.trans ?_⟩
  rw [List.append_assoc]
  rfl

theorem freshBroadcast_tells (caller key : String) (p : BroadcastParams) (acl : Acl) :
    Meets Anyhow (·.audit = chain) (freshBroadcast caller p (acl.recipientsForBroadcast caller).1
      (acl.recipientsForBroadcast caller).2 key) (fun a w => ∃ events,
      (Decision.broadcast caller p acl).Fresh a events ∧ w.audit = chain ++ events) := by
  refine (buildEnvelopeWithCaps_mute _).bind fun env => (execute_mute _).bind fun _ => ?_
  refine (audits_tell (deniedEvent env.messageId caller)).bind fun _ => ?_
  refine (audit_tells _ _ _ _ _ _).bind fun _ => Meets.bind (Meets.forM fun r _ =>
    insertDelivery_mute env.messageId r) fun _ => ?_
  refine (dedupeInsert_mute _ _ _ _ _).bind fun _ => Meets.pure fun w here => ?_
  refine ⟨_, .broadcast caller env.messageId p acl _ _ rfl, here.trans ?_⟩
  rw [List.append_assoc]
  rfl

end Sections
end Writing

section Deciding
variable [Platform]

omit [Platform] in
theorem dedupeInsert_errs {others : BusError → Prop} (caller key messageId hash : String)
    (askId : Option String) : Errs others (dedupeInsert caller key messageId askId hash) :=
  .bind .nowRfc3339 fun _ => .execute _

theorem freshSend_errs {others : BusError → Prop} (caller key : String) (p : SendParams) :
    Errs others (freshSend caller p key) :=
  .bind (nextSeq_errs _ _) fun _ => .bind (buildEnvelopeWithCaps_errs _) fun _ =>
    .bind (.execute _) fun _ => .bind .audit fun _ => .bind (insertDelivery_errs _ _) fun _ =>
    .bind (dedupeInsert_errs _ _ _ _ _) fun _ => .pure _

theorem freshAsk_errs {others : BusError → Prop} (caller key askId : String) (p : AskParams) :
    Errs others (freshAsk caller p key askId) :=
  .bind (nextSeq_errs _ _) fun _ => .bind (buildEnvelopeWithCaps_errs _) fun _ =>
    .bind (.execute _) fun _ => .bind .audit fun _ => .bind .audit fun _ =>
    .bind (insertDelivery_errs _ _) fun _ => .bind (.rfc3339After _) fun _ =>
    .bind (.execute _) fun _ => .bind (dedupeInsert_errs _ _ _ _ _) fun _ => .pure _

theorem freshBroadcast_errs {others : BusError → Prop} (caller key : String) (p : BroadcastParams)
    (included denied : List String) : Errs others (freshBroadcast caller p included denied key) :=
  .bind (buildEnvelopeWithCaps_errs _) fun _ => .bind (.execute _) fun _ =>
    .bind (.forM fun _ => .audit) fun _ => .bind .audit fun _ =>
    .bind (.forM fun _ => insertDelivery_errs _ _) fun _ =>
    .bind (dedupeInsert_errs _ _ _ _ _) fun _ => .pure _

/-- How the section of a decision ends: a bound key only reads, and a fresh submission that
answers has appended its events. -/
inductive Decision.Ends (d : Decision) (w : World) : Except BusError Answer → World → Prop where
  | bound (row) : d.bound w = some row → w'.audit = w.audit → w'.store = w.store →
      (∀ e, r = .error e → (∃ text, e = .internal text) ∨ ∃ text, e = .dup text) →
      Ends d w r w'
  | fresh (events) : d.bound w = none → d.Fresh a events → w'.audit = w.audit ++ events →
      Ends d w (.ok a) w'
  | failed (text) : d.bound w = none → Ends d w (.error (.internal text)) w'

/-- From the dedupe decision on. -/
theorem deduped_ends {d : Decision} {w w₁ : World} {fresh : Act Answer} (quiet : w.Quiet w₁)
    (tells : Meets Anyhow (·.audit = w.audit) fresh (fun a w' => ∃ events,
      d.Fresh a events ∧ w'.audit = w.audit ++ events)) (errs : Errs (fun _ => False) fresh) :
    d.Ends w ((deduped d.caller (d.key w) d.submission.body d.replay fresh).exec w₁).1
      ((deduped d.caller (d.key w) d.submission.body d.replay fresh).exec w₁).2 := by
  simp only [deduped, Action.exec_bind]
  obtain ⟨w₂, quiet', ⟨_, looked⟩ | ⟨_, text, looked⟩⟩ := dedupeLookup_exec d.caller (d.key w) w₁
  · have same : w₁.store.binding d.caller (d.key w) = d.bound w := by rw [quiet.store]; rfl
    rw [looked, same]
    cases found : d.bound w with
    | some row =>
      simp only [Option.map_some]
      split
      · exact .bound row found (quiet'.audit.trans quiet.audit) (quiet'.store.trans quiet.store)
          fun e failed => by cases failed
      · refine .bound row found (quiet'.audit.trans quiet.audit) (quiet'.store.trans quiet.store) ?_
        intro e failed
        cases failed
        exact .inr ⟨_, rfl⟩
    | none =>
      simp only [Option.map_none]
      have answers := (tells w₂ (quiet'.audit.trans quiet.audit)).2
      have fails := errs w₂
      cases ran : fresh.exec w₂ with
      | mk r w' =>
        rw [ran] at answers fails
        cases r with
        | ok a =>
          obtain ⟨events, fresh, told⟩ := answers a rfl
          exact .fresh events found fresh told
        | error e =>
          obtain ⟨text, rfl⟩ | never := fails e rfl
          · exact .failed text found
          · exact never.elim
  · rw [looked]
    cases found : d.bound w with
    | some row =>
      refine .bound row found (quiet'.audit.trans quiet.audit) (quiet'.store.trans quiet.store) ?_
      intro e failed
      cases failed
      exact .inl ⟨_, rfl⟩
    | none => exact .failed text found

theorem Decision.submit_ends (d : Decision) (w : World) :
    d.Ends w (d.submit.exec w).1 (d.submit.exec w).2 := by
  cases d with
  | send caller p =>
    obtain ⟨w₁, quiet, _, ran⟩ := keyOrNew_exec p.idempotencyKey w
    have ends := deduped_ends (d := .send caller p) quiet (freshSend_tells caller _ p)
      (freshSend_errs caller (Decision.key (.send caller p) w) p)
    simp only [submit, submitSend, Action.exec_bind, ran]
    exact ends
  | ask caller p =>
    obtain ⟨w₁, quiet, _, ran⟩ := keyOrNew_exec p.idempotencyKey w
    have next : w.Quiet { w₁ with minted := w₁.minted + 1 } :=
      ⟨quiet.store, quiet.audit, quiet.memory, quiet.history, Nat.le_succ_of_le quiet.minted⟩
    have ends := deduped_ends (d := .ask caller p) next (freshAsk_tells caller _ _ p)
      (freshAsk_errs caller (Decision.key (.ask caller p) w) (Platform.uuid w₁.minted) p)
    simp only [submit, submitAsk, Action.exec_bind, ran]
    exact ends
  | broadcast caller p acl =>
    obtain ⟨w₁, quiet, _, ran⟩ := keyOrNew_exec p.idempotencyKey w
    have ends := deduped_ends (d := .broadcast caller p acl) quiet
      (freshBroadcast_tells caller _ p acl)
      (freshBroadcast_errs caller (Decision.key (.broadcast caller p acl) w) p _ _)
    simp only [submit, submitBroadcast, Action.exec_bind, ran]
    exact ends

end Deciding

section Walking
variable {request : Request} {visited : List BusStage} {caller : String} {α β : Type}

/-- After these stages, the call goes on to an answer of this kind, or is told off as it
should be. -/
def Leaves (request : Request) (visited : List BusStage) (h : Handler α)
    (Q : List BusStage → α → Prop) : Prop :=
  ∀ stages r, h.run.Takes stages r → match r with
    | .ok a => Q (visited ++ stages) a
    | .error e => request.Told (visited ++ stages) e

namespace Leaves
variable {Q : List BusStage → α → Prop} {R : List BusStage → β → Prop}

theorem bind {h : Handler α} {f : α → Handler β} (first : Leaves request visited h Q)
    (rest : ∀ visited a, Q visited a → Leaves request visited (f a) R) :
    Leaves request visited (h >>= f) R := by
  intro stages r takes
  rcases takes_bind takes with ⟨before, after, a, rfl, taken, later⟩ | ⟨e, rfl, taken⟩
  · have left := rest _ a (first before (.ok a) taken) after r later
    rwa [List.append_assoc] at left
  · exact first stages (.error e) taken

theorem pure {a : α} (holds : Q visited a) :
    Leaves request visited (Pure.pure a : Handler α) Q := by
  intro stages r takes
  obtain ⟨rfl, rfl⟩ := takes_pure takes
  simpa using holds

theorem throw {e : BusError} (told : request.Told visited e) :
    Leaves request visited (MonadExcept.throw e : Handler α) Q := by
  intro stages r takes
  obtain ⟨rfl, rfl⟩ := takes_throw takes
  simpa using told

theorem raise {r : Except BusError α} (holds : ∀ a, r = .ok a → Q visited a)
    (told : ∀ e, r = .error e → request.Told visited e) :
    Leaves request visited (Crewd.raise r) Q := by
  cases r with
  | ok a => exact pure (holds a rfl)
  | error e => exact throw (told e rfl)

theorem locked {m : Act α} (ends : ∀ i w, match (m.exec (w.install i)).1 with
      | .ok a => Q (visited ++ [⟨i, w, (m.exec (w.install i)).2⟩]) a
      | .error e => request.Told (visited ++ [⟨i, w, (m.exec (w.install i)).2⟩]) e) :
    Leaves request visited (Crewd.locked m) Q := by
  intro stages r takes
  obtain ⟨i, w, rfl, rfl⟩ := takes_locked takes
  exact ends i w

/-- The stages gone through so far stay. -/
theorem weaken {h : Handler α} {Q' : List BusStage → α → Prop}
    (after : ∀ more a, Q (visited ++ more) a → Q' (visited ++ more) a)
    (leaves : Leaves request visited h Q) : Leaves request visited h Q' := by
  intro stages r takes
  have ended := leaves stages r takes
  cases r with
  | ok a => exact after stages a ended
  | error e => exact ended

/-- A section that only reads, and has nothing of its own to tell. -/
theorem silent {m : Act α} {events : List AuditEventDraft} (silent : Silent m)
    (only : Only visited events) (told : ∀ stages e, (∃ w, (m.exec w).1 = .error e) →
      request.Told stages e) :
    Leaves request visited (Crewd.locked m) (fun visited _ => Only visited events) := by
  apply locked
  intro i w
  cases ran : (m.exec (w.install i)).1 with
  | ok a => exact only.still (silent (w.install i)).audit (silent (w.install i)).store
  | error e => exact told _ e ⟨_, ran⟩

end Leaves

/-- Errors that are neither of the audited kinds nor denials. -/
inductive Unaudited : BusError → Prop where
  | internal (text : String) : Unaudited (.internal text)
  | bodyTooLarge (text : String) : Unaudited (.bodyTooLarge text)
  | unknownCell (text : String) : Unaudited (.unknownCell text)
  | askNotFound (text : String) : Unaudited (.askNotFound text)

theorem reach_denial {acl : Acl} {via : ReachVia} {target : String} {e : BusError}
    (known : acl.get caller ≠ none) (denied : acl.checkReach caller target via = .error e) :
    e = .aclDenied s!"{caller} lacks per-target grant to protected cell {target}" := by
  unfold Acl.checkReach at denied
  cases held : acl.get caller with
  | none => exact absurd held known
  | some c =>
    rw [held] at denied
    dsimp only at denied
    by_cases isOpen : (!((acl.get target).map (·.isProtected)).getD false) = true
    · rw [if_pos isOpen] at denied
      cases denied
    · rw [if_neg isOpen] at denied
      exact error_of_else denied

theorem ReachDenied.message {target : String} {e : BusError} (denied : ReachDenied caller target e) :
    ∃ message, e = .aclDenied message := by
  obtain ⟨acl, via, _, denied⟩ := denied
  exact acl_reach_denies denied

theorem told_unaudited {stages : List BusStage} {e : BusError} (unaudited : Unaudited e) :
    request.Told stages e := by
  constructor
  · rintro text rfl
    cases unaudited
  · rintro text rfl
    cases unaudited
  · rintro text rfl
    cases unaudited
  · intro caller target _ denied
    obtain ⟨message, rfl⟩ := denied.message
    cases unaudited

theorem told_quota {stages : List BusStage} {text : String}
    (rejected : Rejected "quota_exceeded" stages) : request.Told stages (.quota text) where
  quota _ _ := rejected
  replyExists _ same := nomatch same
  dup _ same := nomatch same
  denied _ _ _ reach := nomatch reach.message

theorem told_replyExists {stages : List BusStage} {text : String}
    (rejected : Rejected "duplicate_reply" stages) : request.Told stages (.replyExists text) where
  quota _ same := nomatch same
  replyExists _ _ := rejected
  dup _ same := nomatch same
  denied _ _ _ reach := nomatch reach.message

theorem told_dup {stages : List BusStage} {text : String} (only : Only stages []) :
    request.Told stages (.dup text) where
  quota _ same := nomatch same
  replyExists _ same := nomatch same
  dup _ _ := only
  denied _ _ _ reach := nomatch reach.message

theorem told_acl {stages : List BusStage} {message : String}
    (denied : ∀ caller target, request.unicast = some (caller, target) →
      ReachDenied caller target (.aclDenied message) → Rejected "protected_access_denied" stages) :
    request.Told stages (.aclDenied message) where
  quota _ same := nomatch same
  replyExists _ same := nomatch same
  dup _ same := nomatch same
  denied := denied

/-- The denial of a capability is not that of a target. -/
theorem capability_apart {acl : Acl} {cap : Capability} {target : String} {e : BusError}
    (denied : acl.check caller cap = .error e) : ¬ ReachDenied caller target e := by
  rintro ⟨acl', via, known, reach⟩
  have texts := BusError.aclDenied.inj
    ((acl_check_denies denied).symm.trans (reach_denial known reach))
  have tails : " lacks capability " ++ cap.asStr =
      " lacks per-target grant to protected cell " ++ target := by
    apply (String.append_right_inj caller).mp
    rw [← String.append_assoc, ← String.append_assoc]
    exact texts
  have chars := congrArg (fun text => text.toList[7]?) tails
  simp [String.toList_append] at chars

/-- The caller of a unicast submission is this one. -/
def Request.From (request : Request) (caller : String) : Prop :=
  ∀ other target, request.unicast = some (other, target) → other = caller

theorem told_denied {acl : Acl} {cap : Capability} {stages : List BusStage} {e : BusError}
    (own : request.From caller) (denied : acl.check caller cap = .error e) :
    request.Told stages e := by
  obtain rfl := acl_check_denies denied
  apply told_acl
  intro other target same reach
  rw [own other target same] at reach
  exact absurd reach (capability_apart denied)

/-- An audited rejection is the one event of its kind, or an internal error. -/
theorem refuse_leaves {kind outcome : String} {target : Option String} {e : BusError}
    {Q : List BusStage → α → Prop} (known : kind ∈ auditKinds) (only : Only visited [])
    (told : ∀ stages, Rejected kind stages → request.Told stages e) :
    Leaves request visited (refuse kind caller target outcome e) Q := by
  refine Leaves.bind (Q := fun visited _ => Rejected kind visited) (Leaves.locked fun i w => ?_)
    fun visited _ rejected => Leaves.throw (told visited rejected)
  have store := audit_store kind none (some caller) target outcome none (w.install i)
  obtain ⟨_, w', _, ran⟩ | ⟨_, text, w', _, ran⟩ :=
    audit_exec none (some caller) target none known (w.install i)
  · rw [ran] at store ⊢
    exact ⟨_, rfl, only.concat rfl (.of_eq store)⟩
  · rw [ran]
    exact told_unaudited (.internal text)

theorem currentAcl_leaves {events : List AuditEventDraft} (only : Only visited events) :
    Leaves request visited currentAcl (fun visited acl => Only visited events ∧
      ∃ stage ∈ visited, acl = stage.before.memory.acl) := by
  refine Leaves.locked fun i w => ?_
  exact ⟨only.still rfl rfl, _, List.mem_append_right _ List.mem_cons_self, rfl⟩

theorem checkCapability_leaves {cap : Capability} (own : request.From caller)
    (only : Only visited []) : Leaves request visited (checkCapability caller cap)
      (fun visited _ => Only visited []) := by
  refine (currentAcl_leaves only).bind fun visited acl read => ?_
  exact Leaves.raise (fun _ _ => read.1) fun e denied => told_denied own denied

theorem checkMsgType_leaves {msgType : MsgType} (own : request.From caller)
    (only : Only visited []) : Leaves request visited (checkMsgType caller msgType)
      (fun visited _ => Only visited []) := by
  refine (currentAcl_leaves only).bind fun visited acl read => ?_
  have gate : ∀ cap, Leaves request visited (raise (acl.check caller cap) : Handler Unit)
      (fun visited _ => Only visited []) := fun cap =>
    Leaves.raise (fun _ _ => read.1) fun e denied => told_denied own denied
  cases msgType with
  | adminRequest => exact gate _
  | ask => exact gate _
  | reply => exact gate _
  | _ => exact Leaves.pure read.1

theorem checkAttachFiles_leaves {fileRefs : List String} (own : request.From caller)
    (only : Only visited []) : Leaves request visited (checkAttachFiles caller fileRefs)
      (fun visited _ => Only visited []) := by
  unfold checkAttachFiles
  split
  · exact Leaves.pure only
  · exact checkCapability_leaves own only

theorem authorizeOutbound_leaves {target : String} {cap : Capability} {via : ReachVia}
    (own : request.From caller) (only : Only visited []) :
    Leaves request visited (authorizeOutbound caller target cap via)
      (fun visited _ => Only visited []) := by
  refine (currentAcl_leaves only).bind fun visited acl ⟨only, _⟩ => ?_
  refine (Leaves.raise (Q := fun visited _ => Only visited []) (fun _ _ => only)
    fun e denied => told_denied own denied).bind fun visited _ only => ?_
  split
  · cases reached : acl.checkReach caller target via with
    | ok _ => exact Leaves.pure only
    | error e =>
      obtain ⟨message, rfl⟩ := acl_reach_denies reached
      exact refuse_leaves (by decide) only fun stages rejected => told_acl fun _ _ _ _ => rejected
  · exact Leaves.throw (told_unaudited (.unknownCell _))

/-- A quota that is exceeded is the one event of the call. -/
theorem enforceQuota_leaves {target : Option String}
    {f : QuotaTracker → Except BusError Unit × QuotaTracker}
    (limits : ∀ q e, (f q).1 = .error e → ∃ text, e = .quota text) (only : Only visited []) :
    Leaves request visited (enforceQuota caller target f) (fun visited _ => Only visited []) := by
  refine Leaves.bind (Q := fun visited r => Only visited [] ∧ ∀ e, r = .error e →
      ∃ text, e = .quota text) (Leaves.locked fun i w => ?_) fun visited r ⟨only, kinds⟩ => ?_
  · exact ⟨only.still rfl rfl, fun e failed => limits w.memory.quota e failed⟩
  · cases r with
    | ok _ => exact Leaves.pure only
    | error e =>
      obtain ⟨text, rfl⟩ := kinds e rfl
      exact refuse_leaves (by decide) only fun stages rejected => told_quota rejected

theorem checkQueueDepth_quota {pending : Nat} (q : QuotaTracker) (e : BusError)
    (failed : q.checkQueueDepth pending = .error e) : ∃ text, e = .quota text := by
  unfold QuotaTracker.checkQueueDepth at failed
  split at failed
  · exact ⟨_, (Except.error.inj failed).symm⟩
  · cases failed

theorem checkPendingAskCap_quota {openAsks : Nat} (q : QuotaTracker) (e : BusError)
    (failed : q.checkPendingAskCap openAsks = .error e) : ∃ text, e = .quota text := by
  unfold QuotaTracker.checkPendingAskCap at failed
  split at failed
  · exact ⟨_, (Except.error.inj failed).symm⟩
  · cases failed

theorem noteAndCheckSender_quota {now units : Nat} (q : QuotaTracker) (e : BusError)
    (failed : (q.noteAndCheckSender caller now units).1 = .error e) : ∃ text, e = .quota text := by
  simp only [QuotaTracker.noteAndCheckSender] at failed
  split at failed
  · exact ⟨_, (Except.error.inj failed).symm⟩
  · cases failed

theorem noteAndCheckCapability_quota {cap : Capability} {now : Nat} (q : QuotaTracker)
    (e : BusError) (failed : (q.noteAndCheckCapability caller cap now).1 = .error e) :
    ∃ text, e = .quota text := by
  simp only [QuotaTracker.noteAndCheckCapability] at failed
  split at failed
  · cases failed
  · split at failed
    · exact ⟨_, (Except.error.inj failed).symm⟩
    · cases failed

/-- A failing `SELECT` is an internal error. -/
theorem query_leaves {f : Store → α} (only : Only visited []) :
    Leaves request visited (locked (query f)) (fun visited _ => Only visited []) := by
  refine Leaves.silent (.query f) only fun stages e ⟨w, failed⟩ => ?_
  obtain ⟨text, rfl⟩ | never := (Errs.query f : Errs (fun _ => False) _) w e failed
  · exact told_unaudited (.internal text)
  · exact never.elim

theorem nowMs_leaves (only : Only visited []) :
    Leaves request visited (locked nowMs) (fun visited _ => Only visited []) := by
  refine Leaves.silent .nowMs only fun stages e ⟨w, failed⟩ => ?_
  cases failed

theorem admitOutbound_leaves {target : String} {cap : Capability} {units : Nat}
    (only : Only visited []) : Leaves request visited (admitOutbound caller target cap units)
      (fun visited _ => Only visited []) :=
  (query_leaves only).bind fun _ _ only =>
    (enforceQuota_leaves checkQueueDepth_quota only).bind fun _ _ only =>
    (nowMs_leaves only).bind fun _ _ only =>
    (enforceQuota_leaves noteAndCheckSender_quota only).bind fun _ _ only =>
    enforceQuota_leaves noteAndCheckCapability_quota only

theorem findAsk_leaves {askId : String} (only : Only visited []) :
    Leaves request visited (locked (findAsk askId)) (fun visited _ => Only visited []) := by
  refine Leaves.silent (.bind (.query _) fun row => ?_) only fun stages e ⟨w, failed⟩ => ?_
  · cases row with
    | none => exact .throw _
    | some ask => exact .pure _
  · obtain ⟨_, text, w', ran⟩ | ⟨_, w', ⟨_, text, ran⟩ | ⟨ask, _, ran⟩⟩ := findAsk_ends askId w
    · rw [ran] at failed
      cases failed
      exact told_unaudited (.internal text)
    · rw [ran] at failed
      cases failed
      exact told_unaudited (.askNotFound text)
    · rw [ran] at failed
      cases failed

theorem parsed_leaves {params : Params β} {extraAllowed : List String} {f : β → Handler α}
    {Q : List BusStage → α → Prop}
    (rest : ∀ p, params.parsed = .ok p → Leaves request visited (f p) Q) :
    Leaves request visited (do
      raise (rejectClientIdentityKeys params.keys extraAllowed)
      let p ← raise (parseParams params)
      f p) Q := by
  refine Leaves.bind (Leaves.raise (Q := fun seen _ => seen = visited) (fun _ _ => rfl)
    fun e failed => ?_) fun _ _ same => ?_
  · unfold rejectClientIdentityKeys at failed
    split at failed
    · cases failed
      exact told_unaudited (.internal _)
    · cases failed
  · rw [same]
    refine Leaves.bind (Leaves.raise (Q := fun seen p => seen = visited ∧ params.parsed = .ok p)
      (fun p parsed => ⟨rfl, ?_⟩) fun e failed => ?_) fun _ p ⟨same, parsed⟩ => ?_
    · cases given : params.parsed with
      | ok p' =>
        rw [parseParams, given] at parsed
        exact congrArg Except.ok (Except.ok.inj parsed)
      | error e =>
        rw [parseParams, given] at parsed
        cases parsed
    · cases given : params.parsed with
      | ok p' =>
        rw [parseParams, given] at failed
        cases failed
      | error e' =>
        rw [parseParams, given] at failed
        cases failed
        exact told_unaudited (.internal _)
    · rw [same]
      exact rest p parsed

/-- The two checks of the input. -/
theorem limits_leave {key body : String} {more : Handler α} {Q : List BusStage → α → Prop}
    (rest : Leaves request visited more Q) : Leaves request visited (do
      raise (checkIdem key)
      raise (checkBody body)
      more) Q := by
  refine Leaves.bind (Leaves.raise (Q := fun seen _ => seen = visited) (fun _ _ => rfl)
    fun e failed => ?_) fun _ _ same => ?_
  · obtain ⟨text, rfl⟩ := checkIdem_fails failed
    exact told_unaudited (.bodyTooLarge text)
  · rw [same]
    refine Leaves.bind (Leaves.raise (Q := fun seen _ => seen = visited) (fun _ _ => rfl)
      fun e failed => ?_) fun _ _ same => ?_
    · obtain ⟨text, rfl⟩ := checkBody_fails failed
      exact told_unaudited (.bodyTooLarge text)
    · rw [same]
      exact rest

section Submissions
variable [Platform]

/-- The last section of a submitting call. -/
theorem submit_leaves (d : Decision) (only : Only visited []) :
    Leaves request visited (locked d.submit) (fun visited a => d.Logged visited a) := by
  refine Leaves.locked fun i w => ?_
  have ends := d.submit_ends (w.install i)
  generalize (d.submit.exec (w.install i)).2 = w' at ends
  generalize (d.submit.exec (w.install i)).1 = r at ends
  cases ends with
  | bound row found audit store errs =>
    have still : Only (visited ++ [⟨i, w, w'⟩]) [] := only.still audit store
    cases r with
    | ok a => exact ⟨visited, _, rfl, .inl ⟨⟨row, found⟩, still⟩⟩
    | error e =>
      rcases errs e rfl with ⟨text, rfl⟩ | ⟨text, rfl⟩
      · exact told_unaudited (.internal text)
      · exact told_dup still
  | fresh events unbound fresh told =>
    refine ⟨visited, _, rfl, .inr ⟨unbound, events, fresh, ?_⟩⟩
    have appended : Appended (visited ++ [⟨i, w, w'⟩]) ([] ++ events) := .concat only.appended told
    exact appended
  | failed text => exact told_unaudited (.internal text)

/-- Up to its classification a reply has added nothing; a recorded one is enqueued. -/
theorem submitReply_tells (caller : String) (p : ReplyParams) (ask : AskRow) (w₀ : World) :
    Meets Anyhow (· = w₀) (submitReply caller p ask) (fun o w => match o with
      | (.recorded, m) => w.audit = w₀.audit ++ [enqueuedEvent m caller ask.fromCell]
      | _ => w.audit = w₀.audit ∧ SameRows w₀.store w.store) := by
  have quietly : ∀ {α : Type} {m : Act α}, Silent m → Meets Anyhow
      (fun w => w.audit = w₀.audit ∧ SameRows w₀.store w.store) m
      (fun _ w => w.audit = w₀.audit ∧ SameRows w₀.store w.store) := fun silent w here =>
    ⟨.single trivial, fun _ _ => ⟨(silent w).audit.trans here.1, (silent w).store ▸ here.2⟩⟩
  refine Meets.bind (Q := fun _ w => w.At (snap w₀)) ?_ fun key => Meets.bind (Q := fun _ w =>
    w.audit = w₀.audit ∧ SameRows w₀.store w.store) ?_ fun seq => ?_
  · rintro w rfl
    exact ⟨.single trivial, fun _ _ => w.at_snapshot.quiet (keyOrNew_silent _ w)⟩
  · refine (anyhow (@nextSeq_meets _ .main _ caller ask.fromCell)).weaken (fun _ h => h) ?_
    rintro _ w ⟨c, _, there⟩
    refine ⟨there.audit, ?_⟩
    rw [there.store]
    exact ⟨rfl, rfl, rfl, rfl⟩
  · refine Meets.bind (quietly ?_) fun env => (quietly (replyPrecheck_silent _ _)).bind fun o => ?_
    · exact .bind (.bind .newUuidv7 fun _ => .bind .nowRfc3339 fun _ => .bind (.rfc3339After _)
        fun _ => .pure _) fun _ => .bind (.readMemory _) fun _ => .pure _
    · cases o with
      | recorded =>
        refine Meets.weaken (P := (·.audit = w₀.audit)) (fun _ here => here.1) (fun _ _ h => h) ?_
        refine Meets.bind (Q := fun _ w => w.audit = w₀.audit ++
          [enqueuedEvent env.messageId caller ask.fromCell]) ?_ fun _ => Meets.pure fun _ h => h
        refine (execute_mute _).bind fun _ => (audit_tells _ _ _ _ _ _).bind fun _ => ?_
        exact (commitReply_mute _ _).bind fun _ => insertDelivery_mute _ _
      | duplicateIdentical m => exact Meets.pure fun _ here => here
      | conflict => exact Meets.pure fun _ here => here

theorem submitReply_leaves {p : ReplyParams} {ask : AskRow} (only : Only visited []) :
    Leaves request visited (locked (submitReply caller p ask)) (fun visited o => match o with
      | (.recorded, m) => Appended visited [enqueuedEvent m caller ask.fromCell]
      | _ => Only visited []) := by
  refine Leaves.locked fun i w => ?_
  have answers := (submitReply_tells caller p ask (w.install i) _ rfl).2
  have errs := submitReply_errs caller p ask (w.install i)
  generalize ((submitReply caller p ask).exec (w.install i)).2 = w' at answers
  cases ran : ((submitReply caller p ask).exec (w.install i)).1 with
  | ok o =>
    have told := answers o ran
    match o, told with
    | (.recorded, m), told =>
      have appended : Appended (visited ++ [⟨i, w, w'⟩])
          ([] ++ [enqueuedEvent m caller ask.fromCell]) := .concat only.appended told
      exact appended
    | (.duplicateIdentical _, _), told =>
      exact only.unwritten told.1 told.2
    | (.conflict, _), told =>
      exact only.unwritten told.1 told.2
  | error e =>
    obtain ⟨text, rfl⟩ | never := errs e ran
    · exact told_unaudited (.internal text)
    · exact never.elim

theorem handleSend_leaves (params : Params SendParams) :
    Leaves (.send caller params) [] (handleSend caller params)
      (fun visited a => (Request.send caller params).Answered visited a) := by
  obtain ⟨keys, parsed⟩ := params
  refine parsed_leaves fun p given => ?_
  cases given
  have own : (Request.send caller ⟨keys, .ok p⟩).From caller := by
    intro other target same
    cases same
    rfl
  refine (checkMsgType_leaves own ⟨.nil, by simp⟩).bind fun _ _ only => ?_
  refine (authorizeOutbound_leaves own only).bind fun _ _ only => limits_leave ?_
  refine (checkAttachFiles_leaves own only).bind fun _ _ only => ?_
  refine (admitOutbound_leaves only).bind fun _ _ only => ?_
  exact submit_leaves (.send caller p) only

theorem handleAsk_leaves (params : Params AskParams) :
    Leaves (.ask caller params) [] (handleAsk caller params)
      (fun visited a => (Request.ask caller params).Answered visited a) := by
  obtain ⟨keys, parsed⟩ := params
  refine parsed_leaves fun p given => ?_
  cases given
  have own : (Request.ask caller ⟨keys, .ok p⟩).From caller := by
    intro other target same
    cases same
    rfl
  refine (authorizeOutbound_leaves own ⟨.nil, by simp⟩).bind fun _ _ only => limits_leave ?_
  refine (checkAttachFiles_leaves own only).bind fun _ _ only => ?_
  refine (admitOutbound_leaves only).bind fun _ _ only => ?_
  refine (query_leaves only).bind fun _ _ only => ?_
  refine (enforceQuota_leaves checkPendingAskCap_quota only).bind fun _ _ only => ?_
  exact submit_leaves (.ask caller p) only

theorem handleBroadcast_leaves (params : Params BroadcastParams) :
    Leaves (.broadcast caller params) [] (handleBroadcast caller params)
      (fun visited a => (Request.broadcast caller params).Answered visited a) := by
  obtain ⟨keys, parsed⟩ := params
  refine parsed_leaves fun p given => ?_
  cases given
  have own : (Request.broadcast caller ⟨keys, .ok p⟩).From caller := by
    intro other target same
    cases same
  refine (checkMsgType_leaves own ⟨.nil, by simp⟩).bind fun _ _ only => limits_leave ?_
  refine (checkAttachFiles_leaves own only).bind fun _ _ only => ?_
  refine (currentAcl_leaves only).bind fun visited acl ⟨only, stage, read, same⟩ => ?_
  refine (Leaves.raise (Q := fun seen _ => seen = visited) (fun _ _ => rfl)
    fun e denied => told_denied own denied).bind fun _ _ here => ?_
  rw [here]
  refine Leaves.weaken (Q := fun seen a => (Decision.broadcast caller p acl).Logged seen a)
    (fun more a logged => ⟨stage, List.mem_append_left _ read, same ▸ logged⟩) ?_
  refine (nowMs_leaves only).bind fun _ _ only => ?_
  refine (enforceQuota_leaves noteAndCheckSender_quota only).bind fun _ _ only => ?_
  refine (enforceQuota_leaves noteAndCheckCapability_quota only).bind fun _ _ only => ?_
  exact submit_leaves (.broadcast caller p acl) only

theorem handleReply_leaves (params : Params ReplyParams) :
    Leaves (.reply caller params) [] (handleReply caller params)
      (fun visited a => (Request.reply caller params).Answered visited a) := by
  refine parsed_leaves fun p _ => limits_leave ?_
  have own : (Request.reply caller params).From caller := by
    intro other target same
    cases same
  refine (checkAttachFiles_leaves own ⟨.nil, by simp⟩).bind fun _ _ only => ?_
  refine (checkCapability_leaves own only).bind fun _ _ only => ?_
  refine (findAsk_leaves only).bind fun _ ask only => ?_
  split
  · exact Leaves.throw (told_unaudited (.askNotFound _))
  refine (submitReply_leaves only).bind fun visited o told => ?_
  match o, told with
  | (.recorded, m), told =>
    refine Leaves.bind
      (Q := fun visited _ => Appended visited [enqueuedEvent m caller ask.fromCell])
      (Leaves.locked fun i w => ?_) fun _ _ told => Leaves.pure (.inl ⟨m, ask.fromCell, rfl, told⟩)
    have silent : ((notifyAsker p.askId).exec (w.install i)).2.audit = w.audit := by
      simp only [notifyAsker, Action.exec_step]
      split <;> rfl
    have appended : Appended (visited ++ [⟨i, w, ((notifyAsker p.askId).exec (w.install i)).2⟩])
        ([enqueuedEvent m caller ask.fromCell] ++ []) :=
      .concat told (silent.trans (List.append_nil _).symm)
    exact appended
  | (.duplicateIdentical m, _), only => exact Leaves.pure (.inr ⟨m, rfl, only⟩)
  | (.conflict, _), only =>
    exact refuse_leaves (by decide) only fun stages rejected => told_replyExists rejected

end Submissions
end Walking

def Request.Outbound : Request → Prop
  | .send _ _ | .ask _ _ | .reply _ _ | .broadcast _ _ => True
  | _ => False

/-- Whatever else happens beside it, the answer to a `cell_send`, `cell_ask`, `cell_reply` or
`cell_broadcast` agrees with the events that the call has appended and with its rows. -/
theorem answers_agree_with_audit [Platform] (outbound : request.Outbound)
    (took : service.Took w task request stages r c) : request.Agrees stages r := by
  have leaves : ∀ {h : Handler Answer}, h.run.Takes stages r →
      Leaves request [] h (fun visited a => request.Answered visited a) →
      request.Agrees stages r := fun takes leaves => by
    have ended := leaves stages r takes
    cases r with
    | ok a => exact ended
    | error e => exact ended
  cases request with
  | send caller params => exact leaves took.takes (handleSend_leaves params)
  | ask caller params => exact leaves took.takes (handleAsk_leaves params)
  | reply caller params => exact leaves took.takes (handleReply_leaves params)
  | broadcast caller params => exact leaves took.takes (handleBroadcast_leaves params)
  | await | inbox | reportToolCorrelation | opStatus => exact outbound.elim

/-- A second ask over the cap is the one event of its call. -/
theorem answers_agree_with_audit_capped : ∃ stages c, sampleService.Took blankWorld 1
      (.ask "coder" ⟨["to", "body"], .ok ⟨"reviewer", "ping", [], none, none⟩⟩) stages
      (.error (.quota "pending-ask cap reached (1 open)")) c ∧
    Rejected "quota_exceeded" stages := by
  let _ := Platform.sample
  have ran : ((sampleService.visit blankWorld 1
      (startWith oneAskStart :: asking "coder" "reviewer" "k1" :: sections 0 9 1783242000)
      (.ask "coder" ⟨["to", "body"], .ok ⟨"reviewer", "ping", [], none, none⟩⟩)
      (sections 1 9 1783242001)).map fun visit => visit.2.answer 1) =
        some (some (.error (.quota "pending-ask cap reached (1 open)"))) := by decide +kernel
  obtain ⟨⟨stages, c⟩, visited, answered⟩ := Option.map_eq_some_iff.mp ran
  have took := System.took_of_visit visited answered
  have outbound : (Request.ask "coder"
      ⟨["to", "body"], .ok ⟨"reviewer", "ping", [], none, none⟩⟩).Outbound := trivial
  exact ⟨stages, c, took, (answers_agree_with_audit outbound took).quota _ rfl⟩

end Crewd.Bus
