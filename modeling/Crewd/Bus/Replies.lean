import Crewd.Bus.Denials
import Crewd.Bus.Failures
import Crewd.Bus.Lifecycle

/-! What a `cell_reply` is answered with. The verdict that the ask, its recorded reply and
the time prescribe is compared with what the call answers, which never looks at the time
and takes every ask that is not pending for an answered one. -/
namespace Crewd.Bus
open Autocommit Concurrent Table

section Verdicts
variable [Platform]

inductive ReplyVerdict where
  | recorded
  | duplicate
  | conflict
  | notFound
deriving DecidableEq

/-- The ask was answered with this body. -/
def Store.repliedWith (st : Store) (ask : Ask) (body : String) : Bool :=
  st.envelopes.any fun env => ask.replyMessageId = some env.messageId ∧ env.body = body

/-- A reply is recorded when its ask is open, addressed to the caller and not past its
expiry; an answered ask tells an identical reply from a differing one. -/
def prescribed (st : Store) (caller : String) (p : ReplyParams) (now : String) : ReplyVerdict :=
  match st.ask p.askId with
  | none => .notFound
  | some ask =>
    if ask.toCell ≠ caller then .notFound
    else match ask.state with
      | .pending => if ask.expiresAt ≤ now then .notFound else .recorded
      | .expired => .notFound
      | .answered => if st.repliedWith ask p.body then .duplicate else .conflict

/-- The ask of the caller has expired, or is due to. -/
def Late (st : Store) (caller : String) (p : ReplyParams) (now : String) : Prop :=
  ∃ ask, st.ask p.askId = some ask ∧ ask.toCell = caller ∧
    (ask.state = .expired ∨ ask.state = .pending ∧ ask.expiresAt ≤ now)

abbrev BusStage := Stage World (Input Outside)

/-- The state that the section started in. -/
def BusStage.world (stage : BusStage) : World := stage.before.install stage.input

/-- The time that the section reads. -/
def BusStage.now (stage : BusStage) : String := rfc3339FromUnixSecs (stage.world.peekMs / 1000)

/-- The call was answered so; a recorded reply is in its ask, a conflict in the chain. -/
def ReplyVerdict.Answered (askId : String) (stages : List BusStage) (r : Except BusError Answer) :
    ReplyVerdict → Prop
  | .recorded => ∃ m, r = .ok (.recorded m) ∧ ∃ stage ∈ stages, ∃ ask ∈ stage.after.store.asks,
      ask.askId = askId ∧ ask.state = .answered ∧ ask.replyMessageId = some m
  | .duplicate => ∃ m, r = .ok (.duplicate m)
  | .conflict => (∃ text, r = .error (.replyExists text)) ∧ ∃ stage ∈ stages, ∃ event,
      event.kind = "duplicate_reply" ∧ stage.after.audit = stage.before.audit ++ [event]
  | .notFound => ∃ text, r = .error (.askNotFound text)

end Verdicts

section Submitting
variable [Platform] {w : World} {caller : String} {p : ReplyParams} {ask : AskRow}

theorem keyOrNew_errs {others : BusError → Prop} (key : Option String) :
    Errs others (keyOrNew key) := by
  cases key with
  | some key => exact .pure key
  | none => exact .step _

omit [Platform] in
theorem nextSeq_errs {others : BusError → Prop} (fromCell toCell : String) :
    Errs others (nextSeq fromCell toCell) := by
  refine .transaction (.bind (.execute _) fun _ => .bind (.query _) fun row => ?_)
  cases row with
  | none => exact .internal _
  | some row => exact .bind (.execute _) fun _ => .pure _

theorem buildEnvelopeWithCaps_errs {others : BusError → Prop} (draft : EnvelopeDraft) :
    Errs others (buildEnvelopeWithCaps draft) :=
  .bind (.bind (.step _) fun _ => .bind .nowRfc3339 fun _ => .bind (.rfc3339After _) fun _ =>
    .pure _) fun _ => .bind (.step _) fun _ => .pure _

omit [Platform] in
theorem insertDelivery_errs {others : BusError → Prop} (messageId recipient : String) :
    Errs others (insertDelivery messageId recipient) := .bind .mayFail fun _ => .step _

theorem submitReply_errs (caller : String) (p : ReplyParams) (ask : AskRow) :
    Errs (fun _ => False) (submitReply caller p ask) := by
  refine .bind (keyOrNew_errs _) fun key => .bind (nextSeq_errs _ _) fun seq =>
    .bind (buildEnvelopeWithCaps_errs _) fun env => .bind (.bind (.query _) fun row => ?_)
      fun outcome => ?_
  · cases row with
    | none => exact .pure _
    | some ask =>
      simp only
      split
      · split <;> exact .pure _
      · exact .pure _
  · cases outcome with
    | recorded =>
      exact .bind (.bind (.execute _) fun _ => .bind .audit fun _ => .bind (.bind .mayFail fun _ =>
        .step _) fun _ => insertDelivery_errs _ _) fun _ => .pure _
    | duplicateIdentical m => exact .pure _
    | conflict => exact .pure _

/-- What a submission that answers has found, and what it has done to the ask. -/
def Classified (st : Store) (p : ReplyParams) : ReplyOutcome × String → World → Prop
  | (.recorded, m), w => ∃ ask, st.ask p.askId = some ask ∧ ask.state = .pending ∧
    ∃ ask ∈ w.store.asks, ask.askId = p.askId ∧ ask.state = .answered ∧ ask.replyMessageId = some m
  | (.duplicateIdentical _, _), _ => ∃ ask, st.ask p.askId = some ask ∧ ask.state ≠ .pending ∧
    ask.replyBodySha256 = some (Platform.sha256 p.body)
  | (.conflict, _), _ => ∀ ask, st.ask p.askId = some ask → ask.state ≠ .pending ∧
    ask.replyBodySha256 ≠ some (Platform.sha256 p.body)

/-- The envelope of the draft, with no statement made. -/
theorem buildEnvelopeWithCaps_carries (draft : EnvelopeDraft) (w₀ : World) :
    Counts 0 (Unwritten w₀) (buildEnvelopeWithCaps draft)
      (fun env w => Unwritten w₀ w ∧ env.body = draft.body) (fun _ => True) := by
  refine Counts.bind (l := 0) (Q := fun env w => Unwritten w₀ w ∧ env.body = draft.body)
    (Counts.bind (l := 0) (newUuidv7_counts w₀) fun id => ?_) fun env => ?_
  · refine Counts.bind (l := 0) (Counts.nowRfc3339 Unwritten.unread) fun createdAt => ?_
    exact Counts.bind (l := 0) (Counts.rfc3339After Unwritten.unread _) fun expiresAt =>
      Counts.pure fun _ here => ⟨here, rfl⟩
  · exact Counts.bind (l := 0) (Counts.step (fun _ => rfl) fun _ here => here) fun _ =>
      Counts.pure fun _ here => here

/-- What the precheck answers. -/
theorem replyPrecheck_classifies {w₀ : World} {reply : Envelope} (same : reply.body = p.body) :
    Counts 1 (Unwritten w₀) (replyPrecheck p.askId reply) (fun outcome w => Unwritten w₀ w ∧
      match outcome with
      | .recorded => ∃ ask, w₀.store.ask p.askId = some ask ∧ ask.state = .pending
      | .duplicateIdentical _ => ∃ ask, w₀.store.ask p.askId = some ask ∧ ask.state ≠ .pending ∧
        ask.replyBodySha256 = some (Platform.sha256 p.body)
      | .conflict => ∀ ask, w₀.store.ask p.askId = some ask → ask.state ≠ .pending ∧
        ask.replyBodySha256 ≠ some (Platform.sha256 p.body)) (fun _ => True) := by
  refine Counts.bind (l := 0) (Counts.query Unwritten.unread fun _ _ => trivial) fun row => ?_
  have read : ∀ w, Unwritten w₀ w → w.store.ask p.askId = w₀.store.ask p.askId := by
    intro w unwritten
    rw [Store.ask, unwritten.same.asks]; rfl
  cases row with
  | none =>
    apply Counts.pure
    rintro w ⟨unwritten, found⟩
    refine ⟨unwritten, fun ask known => ?_⟩
    rw [read w unwritten, known] at found
    cases found
  | some ask =>
    simp only
    split
    · rename_i settled
      split
      · rename_i identical
        apply Counts.pure
        rintro w ⟨unwritten, found⟩
        exact ⟨unwritten, ask, (found.trans (read w unwritten)).symm, settled, same ▸ identical⟩
      · rename_i differs
        apply Counts.pure
        rintro w ⟨unwritten, found⟩
        refine ⟨unwritten, fun ask' known => ?_⟩
        rw [read w unwritten, known] at found
        cases found
        exact ⟨settled, same ▸ differs⟩
    · rename_i pending
      apply Counts.pure
      rintro w ⟨unwritten, found⟩
      refine ⟨unwritten, ask, ?_, by simpa using pending⟩
      exact (found.trans (read w unwritten)).symm

/-- The statements of a reply to an open ask, after its classification. -/
theorem recordReply_counts {w₀ : World} {asked : Ask} {env : Envelope} {asker : String}
    (known : w₀.store.ask p.askId = some asked) :
    Counts 4 (Unwritten w₀) (recordReply p.askId env caller asker)
      (fun _ w => ∃ ask ∈ w.store.asks, ask.askId = p.askId ∧ ask.state = .answered ∧
        ask.replyMessageId = some env.messageId) (fun _ => True) := by
  obtain ⟨member, named⟩ := ask_of_find known
  have free : ∀ {m : Act Unit}, Counts 1 (Unwritten w₀) m (fun _ => Unwritten w₀) (SameTables w₀) →
      Counts 1 (Unwritten w₀) m (fun _ => Unwritten w₀) (fun _ => True) := fun counts =>
    ⟨counts.works, fun w here faulty =>
      let ⟨e, w', ran, _⟩ := counts.fails w here faulty
      ⟨e, w', ran, trivial⟩⟩
  refine Counts.bind (l := 3) (free (insertEnvelope_counts env)) fun _ => ?_
  refine Counts.bind (l := 2) (free (audit_counts (by decide))) fun _ => ?_
  refine Counts.bind (l := 1) (Q := fun _ w => ∃ ask ∈ w.store.asks, ask.askId = p.askId ∧
      ask.state = .answered ∧ ask.replyMessageId = some env.messageId)
    (Counts.update Unwritten.unread (fun _ => rfl) (fun _ _ => trivial) fun w unwritten => ?_)
    fun _ => ?_
  · have stored : asked ∈ w.store.asks := unwritten.same.asks ▸ member
    refine ⟨_, Inv.mem_updateAsk.mpr (.inr ⟨asked, stored, named, rfl⟩), ?_, ?_, ?_⟩
    · exact named
    · exact rfl
    · exact rfl
  · refine Counts.update (fun w w' quiet there => ?_) (fun _ => rfl) (fun _ _ => trivial)
      fun w there => there
    rw [quiet.store]
    exact there

/-- A submission makes six statements, and four more when the ask is open. -/
theorem submitReply_classifies {extra : Nat}
    (opened : Open w p.askId → extra = 4) (settled : ¬ Open w p.askId → extra = 0) :
    Counts (6 + extra) (· = w) (submitReply caller p ask) (Classified w.store p)
      (fun _ => True) := by
  have free : Counts 5 (Unwritten w) (nextSeq caller ask.fromCell) (fun _ => Unwritten w)
      (fun _ => True) := ⟨(nextSeq_counts _ _).works, fun v here faulty =>
    let ⟨e, v', ran, _⟩ := (nextSeq_counts _ _).fails v here faulty
    ⟨e, v', ran, trivial⟩⟩
  rw [show 6 + extra = 0 + (5 + (0 + (1 + extra))) by omega]
  refine Counts.bind (keyOrNew_counts p.idempotencyKey w) fun key => ?_
  refine Counts.weaken (P := Unwritten w) (fun v here => here.2) (fun _ _ last => last) ?_
  refine Counts.bind free fun seq => Counts.bind (buildEnvelopeWithCaps_carries _ w) fun env => ?_
  by_cases same : env.body = p.body
  swap
  · exact Counts.vacuous fun v here => same here.2
  refine Counts.weaken (P := Unwritten w) (fun v here => here.1) (fun _ _ last => last) ?_
  refine Counts.bind (replyPrecheck_classifies same) fun outcome => ?_
  cases outcome with
  | recorded =>
    by_cases waits : Open w p.askId
    · obtain rfl := opened waits
      obtain ⟨asked, known, pending⟩ := waits
      refine Counts.bind (l := 0) (Counts.weaken (fun v here => here.1) (fun _ _ last => last)
        (recordReply_counts known)) fun _ => Counts.pure fun v there => ?_
      exact ⟨asked, known, pending, there⟩
    · exact Counts.vacuous fun v here => waits here.2
  | duplicateIdentical m =>
    by_cases waits : Open w p.askId
    · refine Counts.vacuous fun v here => ?_
      obtain ⟨_, ask, known, other, _⟩ := here
      obtain ⟨ask', known', pending⟩ := waits
      cases known.symm.trans known'
      exact other pending
    · obtain rfl := settled waits
      exact Counts.pure fun v here => here.2
  | conflict =>
    by_cases waits : Open w p.askId
    · refine Counts.vacuous fun v here => ?_
      obtain ⟨ask', known, pending⟩ := waits
      exact (here.2 ask' known).1 pending
    · obtain rfl := settled waits
      exact Counts.pure fun v here => here.2

end Submitting
section Courses
variable [Platform] {caller : String} {p : ReplyParams} {stages : List BusStage}
  {r : Except BusError Answer}

/-- The statements of a submission. -/
def replyStatements (st : Store) (askId : String) : Nat :=
  if (st.ask askId).any (·.state = .pending) then 10 else 6

/-- The ask is there and addressed to the caller. -/
def Addressed (askId caller : String) (st : Store) : Prop :=
  ∃ ask, st.ask askId = some ask ∧ ask.toCell = caller

/-- The ways of a reply that has passed the checks, with its stages from the lookup on. -/
inductive ReplyCourse (caller : String) (p : ReplyParams) :
    List BusStage → Except BusError Answer → Prop where
  | lookupFailed {look : BusStage} {text : String} : ¬ Faultless 1 look.world →
      ReplyCourse caller p [look] (.error (.internal text))
  | refused {look : BusStage} {text : String} : Faultless 1 look.world →
      ¬ Addressed p.askId caller look.before.store →
      ReplyCourse caller p [look] (.error (.askNotFound text))
  | submitFailed {look sub : BusStage} {text : String} : Faultless 1 look.world →
      Addressed p.askId caller look.before.store →
      ¬ Faultless (replyStatements sub.before.store p.askId) sub.world →
      ReplyCourse caller p [look, sub] (.error (.internal text))
  | recorded {look sub wake : BusStage} {m : String} : Faultless 1 look.world →
      Addressed p.askId caller look.before.store →
      Faultless (replyStatements sub.before.store p.askId) sub.world →
      Classified sub.before.store p (.recorded, m) sub.after →
      ReplyCourse caller p [look, sub, wake] (.ok (.recorded m))
  | duplicate {look sub : BusStage} {m m' : String} : Faultless 1 look.world →
      Addressed p.askId caller look.before.store →
      Faultless (replyStatements sub.before.store p.askId) sub.world →
      Classified sub.before.store p (.duplicateIdentical m, m') sub.after →
      ReplyCourse caller p [look, sub] (.ok (.duplicate m))
  | conflict {look sub last : BusStage} {m' text : String} {event : AuditEventDraft} :
      Faultless 1 look.world → Addressed p.askId caller look.before.store →
      Faultless (replyStatements sub.before.store p.askId) sub.world →
      Classified sub.before.store p (.conflict, m') sub.after → Faultless 1 last.world →
      last.after.audit = last.before.audit ++ [event] → event.kind = "duplicate_reply" →
      ReplyCourse caller p [look, sub, last] (.error (.replyExists text))
  | auditFailed {look sub last : BusStage} {m' text : String} :
      Faultless 1 look.world → Addressed p.askId caller look.before.store →
      Faultless (replyStatements sub.before.store p.askId) sub.world →
      Classified sub.before.store p (.conflict, m') sub.after → ¬ Faultless 1 last.world →
      ReplyCourse caller p [look, sub, last] (.error (.internal text))

omit [Platform] in
/-- The lookup is one statement. -/
theorem findAsk_ends (askId : String) (w : World) :
    (¬ Faultless 1 w ∧ ∃ text w', (findAsk askId).exec w = (.error (.internal text), w')) ∨
    (Faultless 1 w ∧ ∃ w', (w.store.ask askId = none ∧
        ∃ text, (findAsk askId).exec w = (.error (.askNotFound text), w')) ∨
      ∃ ask, w.store.ask askId = some ask ∧ (findAsk askId).exec w = (.ok ask.toAskRow, w')) := by
  obtain ⟨w', _, ⟨clear, ran⟩ | ⟨faulty, text, ran⟩⟩ :=
    query_exec (fun st => (st.ask askId).map (·.toAskRow)) w
  · refine .inr ⟨clear, w', ?_⟩
    cases known : w.store.ask askId with
    | none =>
      rw [known] at ran
      exact .inl ⟨rfl, _, by simp [findAsk, getAsk, ran]; rfl⟩
    | some ask =>
      rw [known] at ran
      exact .inr ⟨ask, rfl, by simp [findAsk, getAsk, ran]⟩
  · exact .inl ⟨faulty, text, w', by simp [findAsk, getAsk, ran]⟩

omit [Platform] in
theorem replyStatements_open (st : Store) (askId : String) :
    (∃ ask, st.ask askId = some ask ∧ ask.state = .pending) ∧ replyStatements st askId = 10 ∨
    (¬ ∃ ask, st.ask askId = some ask ∧ ask.state = .pending) ∧ replyStatements st askId = 6 := by
  unfold replyStatements
  cases known : st.ask askId with
  | none =>
    refine .inr ⟨?_, rfl⟩
    rintro ⟨ask, same, _⟩
    cases same
  | some ask =>
    by_cases pending : ask.state = .pending
    · exact .inl ⟨⟨ask, rfl, pending⟩, by simp [pending]⟩
    · refine .inr ⟨?_, by simp [pending]⟩
      rintro ⟨_, same, waits⟩
      cases same
      exact pending waits

theorem submitReply_ends (caller : String) (p : ReplyParams) (ask : AskRow) (w : World) :
    (Faultless (replyStatements w.store p.askId) w ∧ ∃ o w',
      (submitReply caller p ask).exec w = (.ok o, w') ∧ Classified w.store p o w') ∨
    (¬ Faultless (replyStatements w.store p.askId) w ∧ ∃ text w',
      (submitReply caller p ask).exec w = (.error (.internal text), w')) := by
  have counts : Counts (replyStatements w.store p.askId) (· = w) (submitReply caller p ask)
      (Classified w.store p) (fun _ => True) := by
    rcases replyStatements_open w.store p.askId with ⟨waits, count⟩ | ⟨settled, count⟩
    · rw [count]
      exact submitReply_classifies (fun _ => rfl) fun settled => absurd waits settled
    · rw [count]
      exact submitReply_classifies (fun waits => absurd waits settled) fun _ => rfl
  by_cases clear : Faultless (replyStatements w.store p.askId) w
  · obtain ⟨o, w', ran, _, classified⟩ := counts.works w rfl clear
    exact .inl ⟨clear, o, w', ran, classified⟩
  · obtain ⟨e, w', ran, _⟩ := counts.fails w rfl clear
    obtain ⟨text, rfl⟩ | never := submitReply_errs caller p ask w e (by rw [ran])
    · exact .inr ⟨clear, text, w', ran⟩
    · exact never.elim

/-- A request that parses, within the limits. -/
structure WellFormed (params : Params ReplyParams) (p : ReplyParams) : Prop where
  keys : rejectClientIdentityKeys params.keys ["ask_id"] = .ok ()
  parsed : parseParams params = .ok p
  key : checkIdem (p.idempotencyKey.getD "") = .ok ()
  body : checkBody p.body = .ok ()

/-- The sections before the lookup. -/
def ReplyParams.checks (p : ReplyParams) : Nat := if p.fileRefs.isEmpty then 1 else 2

def Holds (caller : String) (cap : Capability) (stages : List BusStage) : Prop :=
  ∀ stage ∈ stages, stage.before.memory.acl.check caller cap = .ok ()

/-- The caller may reference the files that it does. -/
def MayAttach (caller : String) (p : ReplyParams) (stages : List BusStage) : Prop :=
  p.fileRefs.isEmpty = false → ∃ stage ∈ stages.head?,
    stage.before.memory.acl.check caller .attachFiles = .ok ()

omit [Platform] in
/-- A capability check is one section. -/
theorem takes_capability {cap : Capability} {f : Unit → Handler Answer}
    (takes : (checkCapability caller cap >>= f).run.Takes stages r) : ∃ stage rest,
      stages = stage :: rest ∧
      (stage.before.memory.acl.check caller cap = .ok () ∧ (f ()).run.Takes rest r ∨
        ∃ text, stage.before.memory.acl.check caller cap = .error (.aclDenied text) ∧
          rest = [] ∧ r = .error (.aclDenied text)) := by
  obtain ⟨first, rest, ⟨⟩, rfl, check, later⟩ | ⟨e, rfl, check⟩ := takes_bind takes
  · obtain ⟨i, w, rest', rfl, ⟨acl, ran, raised⟩ | ⟨_, ran, _⟩⟩ := takes_section check
    · obtain rfl : w.memory.acl = acl := Except.ok.inj ran
      obtain ⟨rfl, passed⟩ := takes_raise raised
      exact ⟨_, rest, rfl, .inl ⟨passed.symm, later⟩⟩
    · cases ran
  · obtain ⟨i, w, rest', rfl, ⟨acl, ran, raised⟩ | ⟨_, ran, _⟩⟩ := takes_section check
    · obtain rfl : w.memory.acl = acl := Except.ok.inj ran
      obtain ⟨rfl, failed⟩ := takes_raise raised
      obtain rfl := acl_check_denies failed.symm
      exact ⟨_, [], rfl, .inr ⟨_, failed.symm, rfl, rfl⟩⟩
    · cases ran

omit [Platform] in
theorem duplicate_reply_known : "duplicate_reply" ∈ auditKinds := by decide

/-- The submission and what follows it. -/
theorem submit_course {ask : AskRow} (clear : Faultless 1 look.world)
    (addressed : Addressed p.askId caller look.before.store) (takes : (do
      match ← locked (submitReply caller p ask) with
        | (.recorded, messageId) => do
          locked (notifyAsker p.askId)
          pure (.recorded messageId)
        | (.duplicateIdentical messageId, _) => pure (.duplicate messageId)
        | (.conflict, _) =>
          refuse "duplicate_reply" caller (some ask.fromCell) "dropped"
            (.replyExists s!"differing reply for {p.askId}") : Handler Answer).run.Takes stages r) :
    ReplyCourse caller p (look :: stages) r := by
  obtain ⟨i, w, rest, rfl, ⟨outcome, ran, later⟩ | ⟨e, ran, rfl, rfl⟩⟩ := takes_section takes
  · obtain ⟨works, o, w', ran', classified⟩ | ⟨_, _, _, ran'⟩ :=
      submitReply_ends caller p ask (w.install i)
    swap
    · rw [ran'] at ran
      cases ran
    have left : w' = ((submitReply caller p ask).exec (w.install i)).2 := by rw [ran']
    rw [ran'] at ran
    cases ran
    rw [left] at classified
    match outcome, classified with
    | (.recorded, m), classified =>
      obtain ⟨i', v, rest', rfl, ⟨_, _, last⟩ | ⟨_, woke, _⟩⟩ := takes_section later
      · obtain ⟨rfl, rfl⟩ := takes_pure last
        exact .recorded clear addressed works classified
      · cases woke
    | (.duplicateIdentical m, m'), classified =>
      obtain ⟨rfl, rfl⟩ := takes_pure later
      exact .duplicate clear addressed works classified
    | (.conflict, m'), classified =>
      obtain ⟨i', v, rest', rfl, told⟩ := takes_section later
      obtain ⟨clear', v', quiet, wrote⟩ | ⟨faulty, text, v', _, lost⟩ :=
        audit_exec none (some caller) (some ask.fromCell) none duplicate_reply_known (v.install i')
      · rcases told with ⟨_, logged, last⟩ | ⟨_, logged, _⟩
        · obtain ⟨rfl, rfl⟩ := takes_throw last
          exact .conflict clear addressed works classified clear'
            (congrArg (fun ran => ran.2.audit) wrote) rfl
        · rw [wrote] at logged
          cases logged
      · rcases told with ⟨_, logged, _⟩ | ⟨_, logged, rfl, rfl⟩
        · rw [lost] at logged
          cases logged
        · rw [lost] at logged
          cases logged
          exact .auditFailed clear addressed works classified faulty
  · obtain ⟨_, o, w', ran', _⟩ | ⟨faulty, text, w', ran'⟩ :=
      submitReply_ends caller p ask (w.install i)
    · rw [ran'] at ran
      cases ran
    · rw [ran'] at ran
      cases ran
      exact .submitFailed clear addressed faulty

/-- The lookup and what follows it. -/
theorem lookup_course (takes : (do
      let ask ← locked (findAsk p.askId)
      if ask.toCell ≠ caller then throw (.askNotFound "reply by non-responder")
      else match ← locked (submitReply caller p ask) with
        | (.recorded, messageId) => do
          locked (notifyAsker p.askId)
          pure (.recorded messageId)
        | (.duplicateIdentical messageId, _) => pure (.duplicate messageId)
        | (.conflict, _) =>
          refuse "duplicate_reply" caller (some ask.fromCell) "dropped"
            (.replyExists s!"differing reply for {p.askId}") : Handler Answer).run.Takes stages r) :
    ReplyCourse caller p stages r := by
  obtain ⟨i, w, rest, rfl, ⟨ask, found, later⟩ | ⟨e, failed, rfl, rfl⟩⟩ := takes_section takes
  · obtain ⟨_, _, _, ran⟩ | ⟨clear, w', ⟨_, _, ran⟩ | ⟨ask', known, ran⟩⟩ :=
      findAsk_ends p.askId (w.install i)
    · rw [ran] at found
      cases found
    · rw [ran] at found
      cases found
    rw [ran] at found
    obtain rfl := Except.ok.inj found
    by_cases own : ask'.toCell = caller
    · rw [if_neg (not_not_intro own)] at later
      exact submit_course clear ⟨ask', known, own⟩ later
    · rw [if_pos own] at later
      obtain ⟨rfl, rfl⟩ := takes_throw later
      refine .refused clear fun ⟨ask, known', own'⟩ => ?_
      cases known.symm.trans known'
      exact own own'
  · obtain ⟨faulty, text, w', ran⟩ | ⟨clear, w', ⟨unknown, text, ran⟩ | ⟨ask', known, ran⟩⟩ :=
      findAsk_ends p.askId (w.install i)
    · rw [ran] at failed
      cases failed
      exact .lookupFailed faulty
    · rw [ran] at failed
      cases failed
      refine .refused clear fun ⟨ask, known, _⟩ => ?_
      cases unknown.symm.trans known
    · rw [ran] at failed
      cases failed

/-- A well-formed reply is refused for its files, or goes one of the ways. -/
theorem reply_course {params : Params ReplyParams} (wellFormed : WellFormed params p)
    (entitled : Holds caller .reply stages)
    (takes : (handleReply caller params).run.Takes stages r) :
    (¬ MayAttach caller p stages ∧ ∃ text, r = .error (.aclDenied text)) ∨
    MayAttach caller p stages ∧ ∃ checks rest, stages = checks ++ rest ∧ checks.length = p.checks ∧
      ReplyCourse caller p rest r := by
  unfold handleReply at takes
  have known := takes_raised wellFormed.keys takes
  have parsed := takes_raised wellFormed.parsed known
  have keyed := takes_raised wellFormed.key parsed
  have limited := takes_raised wellFormed.body keyed
  clear takes known parsed keyed
  simp only [checkAttachFiles] at limited
  by_cases bare : p.fileRefs.isEmpty
  · simp only [bare, if_true] at limited
    obtain ⟨stage, rest, rfl, ⟨_, later⟩ | ⟨text, denied, _⟩⟩ := takes_capability limited
    · refine .inr ⟨fun full => ?_, [stage], rest, rfl, by simp [ReplyParams.checks, bare],
        lookup_course later⟩
      rw [bare] at full
      cases full
    · rw [entitled stage List.mem_cons_self] at denied
      cases denied
  · simp only [bare] at limited
    obtain ⟨stage, rest, rfl, ⟨attaches, later⟩ | ⟨text, denied, _, rfl⟩⟩ :=
      takes_capability limited
    · obtain ⟨stage', rest', rfl, ⟨_, last⟩ | ⟨text, denied, _⟩⟩ := takes_capability later
      · exact .inr ⟨fun _ => ⟨stage, rfl, attaches⟩, [stage, stage'], rest', rfl,
          by simp [ReplyParams.checks, bare], lookup_course last⟩
      · rw [entitled stage' (by simp)] at denied
        cases denied
    · refine .inl ⟨fun attaches => ?_, text, rfl⟩
      obtain ⟨stage', same, allowed⟩ := attaches (by simpa using bare)
      cases same
      rw [denied] at allowed
      cases allowed

end Courses

section Exactness
variable [Platform] {caller : String} {p : ReplyParams} {stages : List BusStage}
  {r : Except BusError Answer} {w : World}

theorem Inv.ask_found (inv : Inv w) (member : ask ∈ w.store.asks) (named : ask.askId = askId) :
    w.store.ask askId = some ask := by
  cases found : w.store.ask askId with
  | none => exact absurd named (by simpa using List.find?_eq_none.mp found ask member)
  | some other =>
    obtain ⟨member', named'⟩ := ask_of_find found
    rw [inv.ask_unique member' member (named'.trans named.symm)]

theorem addressed_lasts (blank : Blank w) (path : service.Reaches w c) (later : service.Leads c d)
    (addressed : Addressed p.askId caller c.shared.store) :
    Addressed p.askId caller d.shared.store := by
  obtain ⟨ask, known, own⟩ := addressed
  obtain ⟨member, named⟩ := ask_of_find known
  obtain ⟨ask', member', named', own'⟩ := lasting
    (P := fun w => ∃ ask ∈ w.store.asks, ask.askId = p.askId ∧ ask.toCell = caller) blank path
    (fun _ _ _ step good ⟨ask, member, named, own⟩ =>
      let ⟨ask', member', evolves⟩ := step.evolves good member
      ⟨ask', member', evolves.askId.trans named, evolves.toCell.trans own⟩)
    ⟨ask, member, named, own⟩ later
  have good := good_reachable blank (System.Leads.trans _ path later)
  exact ⟨ask', good.inv.ask_found member' named', own'⟩

/-- The section that submits, or the last one of a call that ends before. -/
def ReplyParams.deciding (p : ReplyParams) (stages : List BusStage) : Option BusStage :=
  stages[p.checks + 1]?.or stages.getLast?

/-- No statement of the call fails: not the lookup, not the submission, and not the event
of a refused reply. -/
def Unfailed (p : ReplyParams) (stages : List BusStage) : Prop :=
  match stages.drop p.checks with
  | [] => True
  | [look] => Faultless 1 look.world
  | look :: sub :: rest => Faultless 1 look.world ∧
      Faultless (replyStatements sub.before.store p.askId) sub.world ∧
      ∀ last ∈ rest, replyStatements sub.before.store p.askId = 10 ∨ Faultless 1 last.world

/-- What the submission of an addressed ask finds is what is prescribed for it, unless the
ask is late. -/
theorem classified_prescribed (now : String) (inv : Inv w)
    (addressed : Addressed p.askId caller w.store)
    (collisionless : ∀ env ∈ w.store.envelopes,
      Platform.sha256 env.body = Platform.sha256 p.body → env.body = p.body) :
    (Late w.store caller p now ∧ prescribed w.store caller p now = .notFound) ∨
    ¬ Late w.store caller p now ∧ ∃ ask, w.store.ask p.askId = some ask ∧
      ((ask.state = .pending ∧ prescribed w.store caller p now = .recorded) ∨
      (ask.state ≠ .pending ∧ ask.replyBodySha256 = some (Platform.sha256 p.body) ∧
        prescribed w.store caller p now = .duplicate) ∨
      (ask.state ≠ .pending ∧ ask.replyBodySha256 ≠ some (Platform.sha256 p.body) ∧
        prescribed w.store caller p now = .conflict)) := by
  obtain ⟨ask, known, own⟩ := addressed
  obtain ⟨member, _⟩ := ask_of_find known
  have late : Late w.store caller p now ↔
      ask.state = .expired ∨ ask.state = .pending ∧ ask.expiresAt ≤ now := by
    constructor
    · rintro ⟨_, known', _, due⟩
      cases known.symm.trans known'
      exact due
    · exact fun due => ⟨ask, known, own, due⟩
  simp only [prescribed, known, own, not_true_eq_false, if_false, ne_eq, late]
  cases state : ask.state with
  | pending =>
    by_cases due : ask.expiresAt ≤ now
    · exact .inl ⟨.inr ⟨rfl, due⟩, by simp [due]⟩
    · refine .inr ⟨by simp [due], ask, rfl, .inl ⟨state, by simp [due]⟩⟩
  | expired => exact .inl ⟨.inl rfl, rfl⟩
  | answered =>
    obtain ⟨reply, replied⟩ := inv.replied ask member state
    have replied_iff : w.store.repliedWith ask p.body = true ↔
        ask.replyBodySha256 = some (Platform.sha256 p.body) := by
      simp only [Store.repliedWith, List.any_eq_true, Bool.decide_and, Bool.and_eq_true,
        decide_eq_true_eq, replied.hash, Option.some.injEq]
      constructor
      · rintro ⟨env, stored, carried, same⟩
        have here : reply.messageId = env.messageId :=
          Option.some.inj (replied.recorded.symm.trans carried)
        obtain rfl := List.inj_on_of_nodup_map inv.envelopesOnce replied.stored stored here
        rw [same]
      · exact fun same => ⟨reply, replied.stored, replied.recorded,
          collisionless reply replied.stored same⟩
    refine .inr ⟨by simp, ask, rfl, .inr ?_⟩
    by_cases same : w.store.repliedWith ask p.body = true
    · exact .inl ⟨by simp [state], replied_iff.mp same, by simp [same]⟩
    · exact .inr ⟨by simp [state], fun hash => same (replied_iff.mpr hash), by simp [same]⟩

omit [Platform] in
theorem ReplyVerdict.not_internal (verdict : ReplyVerdict) :
    ¬ verdict.Answered askId stages (.error (.internal text)) := by
  cases verdict <;> simp [ReplyVerdict.Answered]

omit [Platform] in
theorem unaddressed_prescribed {st : Store} (now : String)
    (absent : ¬ Addressed p.askId caller st) :
    ¬ Late st caller p now ∧ prescribed st caller p now = .notFound := by
  constructor
  · rintro ⟨ask, known, own, _⟩
    exact absent ⟨ask, known, own⟩
  · unfold prescribed
    cases known : st.ask p.askId with
    | none => rfl
    | some ask =>
      have other : ask.toCell ≠ caller := fun own => absent ⟨ask, known, own⟩
      simp [other]

/-- The submission finds the ask that the lookup has found, in a state of the run. -/
theorem submission_addressed {checks rest : List BusStage} {look sub : BusStage} (blank : Blank w)
    (went : service.Went w task request (checks ++ look :: sub :: rest) c)
    (addressed : Addressed p.askId caller look.before.store) :
    Inv sub.before ∧ Addressed p.askId caller sub.before.store := by
  obtain ⟨b, b', reached, ⟨stepped, found, _⟩, _, later⟩ := went.split
  obtain ⟨e, e', leads, _, found', _⟩ := later sub List.mem_cons_self
  have onward : service.Leads b e := System.Leads.trans _ ((System.Leads.refl b).next stepped) leads
  rw [← found] at addressed
  rw [← found']
  exact ⟨(good_reachable blank (System.Leads.trans _ reached onward)).inv,
    addressed_lasts blank reached onward addressed⟩

/-- A `cell_reply` is answered as prescribed exactly when the ask of the caller is not late,
the files may be attached and no statement fails. -/
theorem reply_outcome_iff {params : Params ReplyParams} (blank : Blank w)
    (took : service.Took w task (.reply caller params) stages r c)
    (wellFormed : WellFormed params p) (entitled : Holds caller .reply stages)
    (decides : p.deciding stages = some stage)
    (collisionless : ∀ env ∈ stage.before.store.envelopes,
      Platform.sha256 env.body = Platform.sha256 p.body → env.body = p.body) :
    (prescribed stage.before.store caller p stage.now).Answered p.askId stages r ↔
      ¬ Late stage.before.store caller p stage.now ∧ MayAttach caller p stages ∧
        Unfailed p stages := by
  obtain ⟨refused, text, rfl⟩ | ⟨attaches, checks, rest, rfl, count, course⟩ :=
    reply_course wellFormed entitled took.takes
  · refine iff_of_false ?_ fun ⟨_, attaches, _⟩ => refused attaches
    cases prescribed stage.before.store caller p stage.now <;> simp [ReplyVerdict.Answered]
  have dropped : (checks ++ rest).drop p.checks = rest := by rw [← count, List.drop_left]
  have second : (checks ++ rest)[p.checks + 1]? = rest[1]? := by
    rw [← count, List.getElem?_append_right (by omega)]
    congr 1
    omega
  simp only [ReplyParams.deciding, second] at decides
  simp only [Unfailed, dropped, attaches, true_and]
  have sound : ∀ {look sub rest'}, look :: sub :: rest' = rest →
      Addressed p.askId caller look.before.store → Inv sub.before ∧
        Addressed p.askId caller sub.before.store := by
    rintro look sub rest' rfl addressed
    exact submission_addressed blank took.went addressed
  cases course with
  | lookupFailed faulty =>
    exact iff_of_false (ReplyVerdict.not_internal _) fun ⟨_, clear⟩ => faulty clear
  | @refused look text clear absent =>
    obtain rfl : look = stage := by simpa using decides
    obtain ⟨timely, verdict⟩ := unaddressed_prescribed look.now absent
    rw [verdict]
    exact iff_of_true ⟨text, rfl⟩ ⟨timely, clear⟩
  | @submitFailed look sub text clear addressed faulty =>
    exact iff_of_false (ReplyVerdict.not_internal _) fun ⟨_, _, works, _⟩ => faulty works
  | @recorded look sub wake m clear addressed works classified =>
    obtain rfl : sub = stage := by simpa using decides
    obtain ⟨asked, known, pending, stored⟩ := classified
    obtain ⟨inv, there⟩ := sound rfl addressed
    rcases classified_prescribed sub.now inv there collisionless with
      ⟨late, verdict⟩ | ⟨timely, ask, known', cases⟩
    · rw [verdict]
      exact iff_of_false (by rintro ⟨text, same⟩; cases same) fun ⟨timely, _⟩ => timely late
    · cases known.symm.trans known'
      obtain ⟨_, verdict⟩ | ⟨settled, _⟩ | ⟨settled, _⟩ := cases
      · rw [verdict]
        refine iff_of_true ⟨m, rfl, sub, by simp, stored⟩ ⟨timely, clear, works, fun _ _ => .inl ?_⟩
        simp [replyStatements, known, pending]
      · exact absurd pending settled
      · exact absurd pending settled
  | @duplicate look sub m m' clear addressed works classified =>
    obtain rfl : sub = stage := by simpa using decides
    obtain ⟨asked, known, settled, identical⟩ := classified
    obtain ⟨inv, there⟩ := sound rfl addressed
    rcases classified_prescribed sub.now inv there collisionless with
      ⟨late, verdict⟩ | ⟨timely, ask, known', cases⟩
    · rw [verdict]
      exact iff_of_false (by rintro ⟨text, same⟩; cases same) fun ⟨timely, _⟩ => timely late
    · cases known.symm.trans known'
      obtain ⟨pending, _⟩ | ⟨_, _, verdict⟩ | ⟨_, differs, _⟩ := cases
      · exact absurd pending settled
      · rw [verdict]
        exact iff_of_true ⟨m, rfl⟩ ⟨timely, clear, works, by simp⟩
      · exact absurd identical differs
  | @conflict look sub last m' text event clear addressed works classified clear' logged kind =>
    obtain rfl : sub = stage := by simpa using decides
    obtain ⟨inv, there⟩ := sound rfl addressed
    rcases classified_prescribed sub.now inv there collisionless with
      ⟨late, verdict⟩ | ⟨timely, ask, known, cases⟩
    · rw [verdict]
      exact iff_of_false (by rintro ⟨text, same⟩; cases same) fun ⟨timely, _⟩ => timely late
    · obtain ⟨settled, differs⟩ := classified ask known
      obtain ⟨pending, _⟩ | ⟨_, identical, _⟩ | ⟨_, _, verdict⟩ := cases
      · exact absurd pending settled
      · exact absurd identical differs
      · rw [verdict]
        have told : ∀ only ∈ [last], replyStatements sub.before.store p.askId = 10 ∨
            Faultless 1 only.world :=
          fun only member => .inr (List.mem_singleton.mp member ▸ clear')
        exact iff_of_true ⟨⟨text, rfl⟩, last, by simp, event, kind, logged⟩
          ⟨timely, clear, works, told⟩
  | @auditFailed look sub last m' text clear addressed works classified faulty =>
    refine iff_of_false (ReplyVerdict.not_internal _) fun ⟨_, _, _, told⟩ => ?_
    rcases told last List.mem_cons_self with many | clear'
    · rcases replyStatements_open sub.before.store p.askId with
        ⟨⟨ask, known, pending⟩, _⟩ | ⟨_, few⟩
      · exact (classified ask known).1 pending
      · cases few.symm.trans many
    · exact faulty clear'

end Exactness

section Sample

def pongParams : ReplyParams := ⟨"0197d8a0-0000-7000-8000-000000000001", "pong", [], none⟩

def pong : Request := .reply "reviewer" ⟨["ask_id", "body"], .ok pongParams⟩

/-- The coder asks the reviewer. -/
def askedPing : List (Move (Input Outside) Request Event) := start ::
  .call (.ask "coder" ⟨["to", "body"], .ok ⟨"reviewer", "ping", [], none, none⟩⟩) ::
    sections 0 9 1783242000

instance [Platform] (st : Store) (caller : String) (p : ReplyParams) (now : String) :
    Decidable (Late st caller p now) :=
  decidable_of_iff ((st.ask p.askId).any fun ask => ask.toCell = caller ∧
      (ask.state = .expired ∨ ask.state = .pending ∧ ask.expiresAt ≤ now)) (by
    simp only [Option.any_eq_true, decide_eq_true_eq]
    rfl)

instance (caller : String) (cap : Capability) (stages : List BusStage) :
    Decidable (Holds caller cap stages) :=
  inferInstanceAs (Decidable (∀ stage ∈ stages, stage.before.memory.acl.check caller cap = .ok ()))

instance (count : Nat) (w : World) : Decidable (Faultless count w) :=
  inferInstanceAs (Decidable (_ = _))

instance (p : ReplyParams) (stages : List BusStage) : Decidable (Unfailed p stages) := by
  unfold Unfailed
  split
  · infer_instance
  · infer_instance
  · infer_instance

/-- The reviewer has answered so after an evaluated run, in which the condition holds. -/
theorem took_pong (before after : List (Move (Input Outside) Request Event))
    (r : Except BusError Answer) (P : List BusStage → BusStage → Bool)
    (visited : (sampleService.visit blankWorld 1 before pong after).any (fun (stages, d) =>
      d.answer 1 = some r ∧ (pongParams.deciding stages).any (P stages)) = true) :
    ∃ stages stage c, sampleService.Took blankWorld 1 pong stages r c ∧
      pongParams.deciding stages = some stage ∧ P stages stage = true := by
  obtain ⟨⟨stages, d⟩, ran, holds⟩ := (Option.any_eq_true _ _).mp visited
  simp only [Bool.decide_and, Bool.and_eq_true, decide_eq_true_eq] at holds
  obtain ⟨stage, decides, holds'⟩ := (Option.any_eq_true _ _).mp holds.2
  exact ⟨stages, stage, d, System.took_of_visit ran holds.1, decides, holds'⟩

theorem pong_wellFormed : WellFormed ⟨["ask_id", "body"], .ok pongParams⟩ pongParams :=
  ⟨rfl, rfl, rfl, rfl⟩

/-- A timely reply of the reviewer is recorded. -/
theorem reply_outcome_iff_pong : let _ := Platform.sample
    ∃ (stages : List BusStage) (stage : BusStage) (r : _) (c : _),
      sampleService.Took blankWorld 1 pong stages r c ∧
      prescribed stage.before.store "reviewer" pongParams stage.now = .recorded ∧
      ReplyVerdict.recorded.Answered pongParams.askId stages r := by
  let _ := Platform.sample
  obtain ⟨stages, stage, c, took, decides, holds⟩ := took_pong askedPing (sections 1 4 1783242060)
    (.ok (.recorded "0197d8a0-0000-7000-8000-000000000004"))
    (fun stages stage => decide (Holds "reviewer" .reply stages ∧
      (∀ env ∈ stage.before.store.envelopes, env.body = "ping") ∧
      prescribed stage.before.store "reviewer" pongParams stage.now = .recorded ∧
      ¬ Late stage.before.store "reviewer" pongParams stage.now ∧ Unfailed pongParams stages))
    (by decide +kernel)
  obtain ⟨holds, bodies, verdict, timely, unfailed⟩ := of_decide_eq_true holds
  have answered := (reply_outcome_iff blankWorld_blank took pong_wellFormed holds decides
    (fun env member same => absurd same (by rw [bodies env member]; decide))).mpr
    ⟨timely, (fun full => by cases full), unfailed⟩
  rw [verdict] at answered
  exact ⟨stages, stage, _, c, took, verdict, answered⟩

/-- A reply to an ask that has expired unanswered is refused as a second one. -/
theorem expired_ask_replied : let _ := Platform.sample
    ∃ (stages : List BusStage) (stage : BusStage) (text : String) (c : _),
      sampleService.Took blankWorld 1 pong stages (.error (.replyExists text)) c ∧
      WellFormed ⟨["ask_id", "body"], .ok pongParams⟩ pongParams ∧
      Holds "reviewer" .reply stages ∧ pongParams.deciding stages = some stage ∧
      (∀ env ∈ stage.before.store.envelopes,
        Platform.sha256 env.body = Platform.sha256 pongParams.body → env.body = pongParams.body) ∧
      ¬ (prescribed stage.before.store "reviewer" pongParams stage.now).Answered
        pongParams.askId stages (.error (.replyExists text)) := by
  let _ := Platform.sample
  obtain ⟨stages, stage, c, took, decides, holds⟩ := took_pong
    (askedPing ++ List.replicate 3 (.main (moment 1783342060))) (sections 1 4 1783342060)
    (.error (.replyExists "differing reply for 0197d8a0-0000-7000-8000-000000000001"))
    (fun stages stage => decide (Holds "reviewer" .reply stages ∧
      (∀ env ∈ stage.before.store.envelopes, env.body = "ping") ∧
      prescribed stage.before.store "reviewer" pongParams stage.now = .notFound))
    (by decide +kernel)
  obtain ⟨holds, bodies, verdict⟩ := of_decide_eq_true holds
  refine ⟨stages, stage, _, c, took, pong_wellFormed, holds, decides, fun env member same => ?_, ?_⟩
  · rw [bodies env member] at same
    exact absurd same (by decide)
  · rw [verdict]
    rintro ⟨text, same⟩
    cases same

end Sample
end Crewd.Bus
