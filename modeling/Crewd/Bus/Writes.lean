import Crewd.Bus.Effects

/-! The sections that write a submission. They enqueue the envelope they have built
and no other, and an ask is the only one after which more asks are pending: one more,
unless its key is bound already. -/
namespace Crewd.Bus
open Autocommit Concurrent Table

variable {room : String → Nat} {drafts : Envelope → Prop}
  {allowed : Envelope → String → Prop} {α : Type}

/-- The envelope is found under its identifier. -/
def Stored (env : Envelope) (w : World) : Prop := w.store.envelope env.messageId = some env

/-- There is room for one more pending ask of the cell. -/
def Slack (room : String → Nat) (cell : String) (w : World) : Prop :=
  w.store.pendingAsks cell < room cell

theorem Stored.of_envelopes (same : w'.store.envelopes = w.store.envelopes) (stored : Stored env w) :
    Stored env w' := by
  rw [Stored, Store.envelope, same]
  exact stored

namespace Abides

/-- What the computation leaves as it is may be asserted around it. -/
theorem around {m : Act α} {P : World → Prop} (keeps : Abides room drafts allowed m)
    (lasts : ∀ w, P w → P (m.exec w).2) : Meets (Confined room drafts allowed) P m (fun _ => P) :=
  fun w holds => ⟨(keeps w trivial).1, fun _ _ => lasts w holds⟩

end Abides

/-- A part after which no more asks are pending leaves the room there is. -/
theorem meets_slack {m : Act α} {P : World → Prop} {Q : α → World → Prop} {cell : String}
    (met : Meets (Confined (fun _ => 0) drafts allowed) P m Q) :
    Meets (Confined room drafts allowed) (fun w => P w ∧ Slack room cell w) m
      (fun a w => Q a w ∧ Slack room cell w) := by
  refine (met.keep fun w w' confined slack => ?_).mono fun _ _ confined => ?_
  · have within := confined.asks cell
    unfold Slack at slack ⊢
    omega
  · exact confined.mono (fun _ => Nat.zero_le _) (fun _ fits => fits) fun _ _ fits => fits

section Parts
variable {env : Envelope} {recipient : String}

theorem audit_around (kind : String) (messageId fromCell toCell : Option String) (outcome : String)
    (detail : Option Json) :
    Meets (Confined room drafts allowed) (Stored env) (audit kind messageId fromCell toCell outcome detail)
      (fun _ => Stored env) :=
  (Abides.audit kind messageId fromCell toCell outcome detail).around fun w stored =>
    stored.of_envelopes (congrArg Store.envelopes (audit_store _ _ _ _ _ _ w))

theorem mayFail_around {P : World → Prop} (lasts : ∀ w w', World.Quiet w w' → P w → P w') :
    Meets (Confined room drafts allowed) P mayFail (fun _ => P) :=
  Abides.mayFail.around fun w holds => lasts w _ (Silent.mayFail w) holds

theorem mayFail_stored : Meets (Confined room drafts allowed) (Stored env) mayFail (fun _ => Stored env) :=
  mayFail_around fun _ _ quiet stored => stored.of_envelopes (congrArg Store.envelopes quiet.store)

theorem insertEnvelope_stores {P : World → Prop} (fits : drafts env) :
    Meets (Confined room drafts allowed) P (insertEnvelope env) (fun _ => Stored env) := by
  refine Meets.weaken (P := fun _ => True) (fun _ _ => trivial) (fun _ _ stored => stored) ?_
  refine Meets.bind Abides.mayFail fun _ => Meets.step (fun w _ => ?_) fun w _ => ?_
  · exact Confined.of_asks (f := fun st => { st with
      envelopes := replaceInto (·.messageId = env.messageId) env st.envelopes }) (fun _ => rfl)
      (fun _ _ inside => (mem_replaceInto.mp inside).imp And.left fun same => same ▸ fits) w
  · have absent : (w.store.envelopes.filter fun e => !decide (e.messageId = env.messageId)).find?
        (fun e => e.messageId = env.messageId) = none := by
      simp [List.find?_eq_none]
    simp [Stored, Store.envelope, replaceInto, List.find?_append, absent]

/-- The row of a delivery, and the mark that the stored envelope is enqueued. -/
theorem insertDelivery_around (fits : allowed env recipient) :
    Meets (Confined room drafts allowed) (Stored env) (insertDelivery env.messageId recipient)
      (fun _ => Stored env) := by
  refine mayFail_stored.bind fun _ => Meets.step (fun w stored => ?_) fun w stored => stored
  unfold Stored at stored
  refine ⟨rfl, rfl, fun _ => Nat.le_max_left _ _, ⟨[(env, recipient)], ?_, ?_⟩, ?_,
    fun _ inside => .inl inside⟩
  · simp [Bus.sent, insertDeliveryRow, stored, enqueues, Passage.enqueue]
  · intro entry inside
    cases List.mem_singleton.mp inside
    exact fits
  · simp [lives, insertDeliveryRow, Mark.isRestart]

/-- The one insert after which more asks are pending. -/
theorem insertAsk_meets_room (askId messageId fromCell toCell expiresAt : String) :
    Meets (Confined room drafts allowed) (Slack room fromCell)
      (insertAsk askId messageId fromCell toCell expiresAt) (fun _ _ => True) := by
  refine (mayFail_around fun w w' quiet slack => ?_).bind fun _ =>
    Meets.step (fun w slack => ?_) fun _ _ => trivial
  · unfold Slack at slack ⊢
    rwa [quiet.store]
  · refine ⟨rfl, rfl, fun cell => ?_, Confined.unsent rfl, rfl, fun _ inside => .inl inside⟩
    unfold Slack Store.pendingAsks at slack
    have kept : ((w.store.asks.filter fun ask => !decide (ask.askId = askId)).filter fun ask =>
        ask.fromCell = cell && ask.state = .pending).length ≤ (w.store.asks.filter fun ask =>
        ask.fromCell = cell && ask.state = .pending).length :=
      (List.filter_sublist.filter _).length_le
    simp only [Store.pendingAsks, replaceInto, List.filter_append, List.length_append]
    by_cases own : fromCell = cell
    · subst own
      have one : ([⟨⟨askId, messageId, fromCell, toCell, expiresAt, .pending, none⟩, none⟩].filter
          fun ask : Ask => ask.fromCell = fromCell && ask.state = .pending).length ≤ 1 :=
        List.length_filter_le _ _
      omega
    · have none : [⟨⟨askId, messageId, fromCell, toCell, expiresAt, .pending, none⟩, none⟩].filter
          (fun ask : Ask => ask.fromCell = cell && ask.state = .pending) = [] := by
        simp [own]
      rw [none]
      simp only [List.length_nil]
      omega

variable [Platform]

theorem buildEnvelopeWithCaps_describes (draft : EnvelopeDraft) :
    Meets (Confined room drafts allowed) (fun _ => True) (buildEnvelopeWithCaps draft)
      (fun env _ => draft.Describes env) := by
  intro w _
  refine ⟨.single (Confined.ofQuiet _ _ ?_), fun env ran => ?_⟩
  · refine Silent.bind (Silent.bind .newUuidv7 fun _ => Silent.bind .nowRfc3339 fun _ =>
      Silent.bind (.rfc3339After _) fun _ => .pure _) (fun _ => ?_) w
    exact Silent.bind (.readMemory _) fun _ => .pure _
  · have built : Meets (Statement .main) (·.At (snap w)) (buildEnvelopeWithCaps draft)
        (Built (snap w) draft) := buildEnvelopeWithCaps_meets draft
    exact ((built w w.at_snapshot).2 env ran).1

end Parts

/-- A fact that the assertion implies may be used from then on. -/
theorem meets_known {m : Act α} {R : World → World → Prop} {P : World → Prop} {fact : Prop}
    {Q : α → World → Prop} (known : ∀ w, P w → fact) (met : fact → Meets R P m Q) : Meets R P m Q :=
  fun w holds => met (known w holds) w holds

/-- What every tool writes into its envelope. -/
structure Carries (caller : String) (kind : Kind) (toCell : Option String) (body : String)
    (env : Envelope) : Prop where
  fromCell : env.fromCell = caller
  kind : env.kind = kind
  toCell : env.toCell = toCell
  body : env.body = body
  taint : env.taint = Crewd.taint

theorem EnvelopeDraft.Describes.carries {draft : EnvelopeDraft} (described : draft.Describes env) :
    Carries draft.fromCell draft.kind draft.toCell draft.body env :=
  ⟨described.fromCell, described.kind, described.toCell, described.body, described.taint⟩

/-- Only a reply has more to meet than its tool and the bound on its body say. -/
theorem Carries.valid {caller body : String} {kind : Kind} {toCell : Option String} {env : Envelope}
    (carries : Carries caller kind toCell body env) (addressed : kind = .broadcast ↔ toCell = none)
    (bounded : checkBody body = .ok ())
    (refers : kind = .reply → env.replyTo.isSome ∧ env.askId.isSome) :
    env.validateInvariants = .ok () := by
  have within : ¬ env.body.utf8ByteSize > maxBodyBytes := by
    intro larger
    rw [checkBody, ← carries.body, if_pos larger] at bounded
    cases bounded
  obtain ⟨-, rfl, rfl, -, tainted⟩ := carries
  unfold Envelope.validateInvariants
  rw [if_neg (not_not.mpr tainted), if_neg, if_neg, if_neg, if_neg within]
  · rintro ⟨reply, missing⟩
    obtain ⟨replyTo, askId⟩ := refers reply
    rcases missing with none | none
    · rw [Option.isNone_iff_eq_none.mp none] at replyTo
      cases replyTo
    · rw [Option.isNone_iff_eq_none.mp none] at askId
      cases askId
  · rintro ⟨other, none⟩
    exact other (addressed.mpr (Option.isNone_iff_eq_none.mp none))
  · rintro ⟨broadcast, some⟩
    rw [addressed.mp broadcast] at some
    cases some

section Fresh
variable [Platform] {caller key : String}

theorem freshSend_keeps {p : SendParams}
    (carried : ∀ env, Carries caller .send (some p.toCell) p.body env → drafts env)
    (fits : ∀ env : Envelope, env.kind = .send → env.fromCell = caller → allowed env p.toCell) :
    Abides room drafts allowed (freshSend caller p key) := by
  refine (Abides.nextSeq _ _).bind fun seq => (buildEnvelopeWithCaps_describes _).bind fun env => ?_
  refine meets_known (fun _ described => described) fun described => ?_
  refine (insertEnvelope_stores (carried env described.carries)).bind fun _ => ?_
  refine (audit_around _ _ _ _ _ _).bind fun _ => ?_
  refine (insertDelivery_around (fits env described.kind described.fromCell)).bind fun _ => ?_
  refine Meets.weaken (fun _ _ => trivial) (fun _ _ done => done) ?_
  exact (Abides.dedupeInsert _ _ _ _ _).bind fun _ => .pure _

theorem freshBroadcast_keeps {p : BroadcastParams} {included denied : List String}
    (carried : ∀ env, Carries caller .broadcast none p.body env → drafts env)
    (fits : ∀ env : Envelope, ∀ r ∈ included, env.kind = .broadcast → env.fromCell = caller →
      allowed env r) :
    Abides room drafts allowed (freshBroadcast caller p included denied key) := by
  refine (buildEnvelopeWithCaps_describes _).bind fun env => ?_
  refine meets_known (fun _ described => described) fun described => ?_
  refine (insertEnvelope_stores (carried env described.carries)).bind fun _ => ?_
  refine (Meets.forM fun _ _ => audit_around _ _ _ _ _ _).bind fun _ => ?_
  refine (audit_around _ _ _ _ _ _).bind fun _ => ?_
  refine (Meets.forM fun r inside => insertDelivery_around
    (fits env r inside described.kind described.fromCell)).bind fun _ => ?_
  refine Meets.weaken (fun _ _ => trivial) (fun _ _ done => done) ?_
  exact (Abides.dedupeInsert _ _ _ _ _).bind fun _ => .pure _

/-- Where the room for one more pending ask is used. -/
theorem freshAsk_meets_room {p : AskParams} {askId : String}
    (carried : ∀ env, Carries caller .ask (some p.toCell) p.body env → drafts env)
    (fits : ∀ env : Envelope, env.kind = .ask → env.fromCell = caller → allowed env p.toCell) :
    Meets (Confined room drafts allowed) (Slack room caller) (freshAsk caller p key askId)
      (fun _ _ => True) := by
  refine Meets.weaken (P := fun w => True ∧ Slack room caller w) (fun _ slack => ⟨trivial, slack⟩)
    (fun _ _ done => done) ?_
  refine (meets_slack (Abides.nextSeq _ _)).bind fun seq => ?_
  refine (meets_slack (buildEnvelopeWithCaps_describes _)).bind fun env => ?_
  refine meets_known (fun _ held => held.1) fun described => ?_
  refine (meets_slack (insertEnvelope_stores (carried env described.carries))).bind fun _ => ?_
  refine (meets_slack (audit_around _ _ _ _ _ _)).bind fun _ => ?_
  refine (meets_slack (audit_around _ _ _ _ _ _)).bind fun _ => ?_
  refine (meets_slack (insertDelivery_around
    (fits env described.kind described.fromCell))).bind fun _ => ?_
  refine Meets.weaken (P := fun w => True ∧ Slack room caller w)
    (fun _ held => ⟨trivial, held.2⟩) (fun _ _ done => done) ?_
  refine (meets_slack (Abides.silent (.rfc3339After _))).bind fun expiresAt => ?_
  refine Meets.weaken (P := Slack room caller) (fun _ held => held.2) (fun _ _ done => done) ?_
  refine (insertAsk_meets_room _ _ _ _ _).bind fun _ => ?_
  exact (Abides.dedupeInsert _ _ _ _ _).bind fun _ => .pure _

theorem deduped_around {body : String} {replay : DedupeHit → Answer} {fresh : Act Answer}
    {P : World → Prop} (lasts : ∀ w w', World.Quiet w w' → P w → P w')
    (met : Meets (Confined room drafts allowed) P fresh (fun _ _ => True)) :
    Meets (Confined room drafts allowed) P (deduped caller key body replay fresh) (fun _ _ => True) := by
  have looked : Meets (Confined room drafts allowed) P (dedupeLookup caller key) (fun _ => P) :=
    (Abides.query _).around fun w holds => lasts w _ (Silent.query _ w) holds
  refine looked.bind fun hit => ?_
  cases hit with
  | none => exact met
  | some hit =>
    dsimp only
    split
    · exact Meets.pure fun _ _ => trivial
    · exact Meets.throw

theorem keyOrNew_silent (key : Option String) : Silent (keyOrNew key : Act String) := by
  cases key with
  | some key => exact .pure _
  | none => exact .newUuidv7

theorem submitSend_keeps {p : SendParams}
    (carried : ∀ env, Carries caller .send (some p.toCell) p.body env → drafts env)
    (fits : ∀ env : Envelope, env.kind = .send → env.fromCell = caller → allowed env p.toCell) :
    Abides room drafts allowed (submitSend caller p) :=
  (Abides.silent (keyOrNew_silent _)).bind fun _ =>
    deduped_around (fun _ _ _ _ => trivial) (freshSend_keeps carried fits)

theorem submitBroadcast_keeps {p : BroadcastParams} {included denied : List String}
    (carried : ∀ env, Carries caller .broadcast none p.body env → drafts env)
    (fits : ∀ env : Envelope, ∀ r ∈ included, env.kind = .broadcast → env.fromCell = caller →
      allowed env r) :
    Abides room drafts allowed (submitBroadcast caller p included denied) :=
  (Abides.silent (keyOrNew_silent _)).bind fun _ =>
    deduped_around (fun _ _ _ _ => trivial) (freshBroadcast_keeps carried fits)

omit [Platform] in
/-- Where only the answer is of interest. -/
theorem meets_any {P : World → Prop} (m : Act α) :
    Meets (fun _ _ => True) P m (fun _ _ => True) :=
  fun _ _ => ⟨.single trivial, fun _ _ => trivial⟩

/-- The answer to a fan-out names its recipients. -/
theorem submitBroadcast_answers {p : BroadcastParams} {included denied : List String} {w : World}
    (ran : ((submitBroadcast caller p included denied).exec w).1 = .ok answer) :
    ∃ messageId, answer = .fannedOut messageId included := by
  have named : Meets (fun _ _ => True) (fun _ => True) (submitBroadcast caller p included denied)
      (fun answer _ => ∃ messageId, answer = .fannedOut messageId included) := by
    refine (meets_any _).bind fun key => (meets_any _).bind fun hit => ?_
    cases hit with
    | none =>
      refine (meets_any _).bind fun env => (meets_any _).bind fun _ => (meets_any _).bind fun _ => ?_
      refine (meets_any _).bind fun _ => (meets_any _).bind fun _ => (meets_any _).bind fun _ => ?_
      exact Meets.pure fun _ _ => ⟨_, rfl⟩
    | some hit =>
      dsimp only
      split
      · exact Meets.pure fun _ _ => ⟨_, rfl⟩
      · exact Meets.throw
  exact (named w trivial).2 answer ran

omit [Platform] in
theorem slack_quiet {cell : String} (w w' : World) (quiet : World.Quiet w w')
    (slack : Slack room cell w) : Slack room cell w' := by
  unfold Slack at slack ⊢
  rwa [quiet.store]

theorem submitAsk_meets_room {p : AskParams}
    (carried : ∀ env, Carries caller .ask (some p.toCell) p.body env → drafts env)
    (fits : ∀ env : Envelope, env.kind = .ask → env.fromCell = caller → allowed env p.toCell) :
    Meets (Confined room drafts allowed) (Slack room caller) (submitAsk caller p) (fun _ _ => True) := by
  refine ((Abides.silent (keyOrNew_silent _)).around fun w slack =>
    slack_quiet w _ (keyOrNew_silent _ w) slack).bind fun key => ?_
  refine ((Abides.silent .newUuidv7).around fun w slack =>
    slack_quiet w _ (Silent.newUuidv7 w) slack).bind fun askId => ?_
  exact deduped_around slack_quiet (freshAsk_meets_room carried fits)

section Replays
variable {key : Option String} {w : World}

theorem keyOrNew_names : Meets (Confined room drafts allowed)
    (fun s => s.store = w.store ∧ s.minted = w.minted) (keyOrNew key)
    (fun name s => name = key.getD (Platform.uuid w.minted) ∧ s.store = w.store) := by
  intro s here
  refine ⟨((Abides.silent (keyOrNew_silent _)) s trivial).1, fun name ran => ?_⟩
  refine ⟨?_, (keyOrNew_silent _ s).store.trans here.1⟩
  cases key with
  | some given => exact (Except.ok.inj ran).symm
  | none =>
    rw [Option.getD_none, ← here.2]
    exact (Except.ok.inj ran).symm

/-- A bound key is answered from its binding. -/
theorem deduped_replays {name body : String} {replay : DedupeHit → Answer} {fresh : Act Answer}
    (bound : w.store.binding caller name ≠ none) :
    Meets (Confined room drafts allowed) (fun s => s.store = w.store)
      (deduped caller name body replay fresh) (fun _ _ => True) := by
  have looked : Meets (Confined room drafts allowed) (fun s => s.store = w.store)
      (dedupeLookup caller name) (fun hit _ => hit ≠ none) := by
    refine fun s here => ⟨((Abides.query _) s trivial).1, fun hit ran => ?_⟩
    rw [query_reads ran, here]
    exact fun none => bound (Option.map_eq_none_iff.mp none)
  refine looked.bind fun hit => meets_known (fun _ known => known) fun known => ?_
  cases hit with
  | none => exact absurd rfl known
  | some hit =>
    dsimp only
    split
    · exact Meets.pure fun _ _ => trivial
    · exact Meets.throw

theorem submitSend_replays {p : SendParams} (bound : ¬ Unbound caller p.idempotencyKey w) :
    Confined room drafts allowed w ((submitSend caller p).exec w).2 := by
  have replayed : Meets (Confined room drafts allowed)
      (fun s => s.store = w.store ∧ s.minted = w.minted) (submitSend caller p) (fun _ _ => True) := by
    refine keyOrNew_names.bind fun key => meets_known (fun _ held => held.1) fun same => ?_
    exact (deduped_replays (same ▸ bound)).weaken (fun _ held => held.2) fun _ _ done => done
  exact .path (replayed w ⟨rfl, rfl⟩).1

theorem submitBroadcast_replays {p : BroadcastParams} {included denied : List String}
    (bound : ¬ Unbound caller p.idempotencyKey w) :
    Confined room drafts allowed w ((submitBroadcast caller p included denied).exec w).2 := by
  have replayed : Meets (Confined room drafts allowed)
      (fun s => s.store = w.store ∧ s.minted = w.minted) (submitBroadcast caller p included denied)
      (fun _ _ => True) := by
    refine keyOrNew_names.bind fun key => meets_known (fun _ held => held.1) fun same => ?_
    exact (deduped_replays (same ▸ bound)).weaken (fun _ held => held.2) fun _ _ done => done
  exact .path (replayed w ⟨rfl, rfl⟩).1

theorem submitAsk_replays {p : AskParams} (bound : ¬ p.unbound caller w) :
    Confined room drafts allowed w ((submitAsk caller p).exec w).2 := by
  have replayed : Meets (Confined room drafts allowed)
      (fun s => s.store = w.store ∧ s.minted = w.minted) (submitAsk caller p) (fun _ _ => True) := by
    refine keyOrNew_names.bind fun key => meets_known (fun _ held => held.1) fun same => ?_
    refine ((Abides.silent .newUuidv7).around fun s held =>
      ⟨held.1, (Silent.newUuidv7 s).store.trans held.2⟩).bind fun askId => ?_
    exact (deduped_replays (same ▸ bound)).weaken (fun _ held => held.2) fun _ _ done => done
  exact .path (replayed w ⟨rfl, rfl⟩).1

end Replays

/-- An ask whose key is not bound takes the room for one more. -/
theorem submitAsk_opens (caller : String) (p : AskParams) (drafts : Envelope → Prop)
    (allowed : Envelope → String → Prop) (w : World)
    (carried : ∀ env, Carries caller .ask (some p.toCell) p.body env → drafts env)
    (fits : ∀ env : Envelope, env.kind = .ask → env.fromCell = caller → allowed env p.toCell) :
    Confined (fun _ => 0) drafts allowed w ((submitAsk caller p).exec w).2 ∨
      p.unbound caller w ∧ Confined (fun cell => if cell = caller then
        w.store.pendingAsks caller + 1 else 0) drafts allowed w ((submitAsk caller p).exec w).2 := by
  by_cases unbound : p.unbound caller w
  · refine .inr ⟨unbound, .path (submitAsk_meets_room carried fits w ?_).1⟩
    simp [Slack]
  · exact .inl (submitAsk_replays unbound)

theorem replyPrecheck_keeps (askId : String) (env : Envelope) :
    Abides room drafts allowed (replyPrecheck askId env) := by
  refine (Abides.query _).bind fun row => ?_
  cases row with
  | none => exact .pure _
  | some ask =>
    dsimp only
    split
    · split <;> exact .pure _
    · exact .pure _

theorem submitReply_keeps {p : ReplyParams} {ask : AskRow}
    (carried : ∀ env, Carries caller .reply (some ask.fromCell) p.body env →
      env.askId = some p.askId → env.replyTo = some ask.messageId → drafts env)
    (fits : ∀ env : Envelope, env.kind = .reply → env.fromCell = caller → env.askId = some p.askId →
      allowed env ask.fromCell) :
    Abides room drafts allowed (submitReply caller p ask) := by
  refine (Abides.silent (keyOrNew_silent _)).bind fun key => (Abides.nextSeq _ _).bind fun seq => ?_
  refine (buildEnvelopeWithCaps_describes _).bind fun env => ?_
  refine meets_known (fun _ described => described) fun described => ?_
  refine Meets.weaken (P := fun _ => True) (fun _ _ => trivial) (fun _ _ done => done) ?_
  refine Abides.bind (replyPrecheck_keeps _ _) fun outcome => ?_
  cases outcome with
  | duplicateIdentical messageId => exact .pure _
  | conflict => exact .pure _
  | recorded =>
    refine Abides.bind ?_ fun _ => .pure _
    refine (insertEnvelope_stores (carried env described.carries described.askId
      described.replyTo)).bind fun _ => (audit_around _ _ _ _ _ _).bind fun _ => ?_
    have settled : Meets (Confined room drafts allowed) (Stored env) (commitReply p.askId env)
        (fun _ => Stored env) := by
      refine mayFail_stored.bind fun _ => Meets.step (fun w _ => ?_) fun w stored => stored
      exact (Confined.of_settled (fun ask => by simp) p.askId w).trans
        (Confined.of_history [.committed p.askId _] rfl rfl _)
    refine settled.bind fun _ => ?_
    exact (insertDelivery_around (fits env described.kind described.fromCell
      described.askId)).weaken (fun _ stored => stored) fun _ _ _ => trivial

end Fresh

section Amounts
variable {space : String → Nat} {recipients : List String}

/-- No more messages come to be enqueued for a recipient than there is space for. -/
def Sends (space : String → Nat) (w w' : World) : Prop :=
  ∀ r, sentTo r w' ≤ max (sentTo r w) (space r)

/-- There is space for one more message to each of the recipients. -/
def Vacant (space : String → Nat) (recipients : List String) (w : World) : Prop :=
  ∀ r ∈ recipients, sentTo r w < space r

theorem Sends.path (path : Relation.ReflTransGen (Sends space) w w') : Sends space w w' := by
  induction path with
  | refl => exact fun _ => Nat.le_max_left _ _
  | tail _ last ih =>
    intro r
    have before := ih r
    have after := last r
    omega

/-- A part that enqueues nothing. -/
abbrev Hushed (m : Act α) : Prop := Abides (fun _ => 0) (fun _ => True) (fun _ _ => False) m

theorem Abides.vacant {m : Act α} (hushed : Hushed m) :
    Meets (Sends space) (Vacant space recipients) m (fun _ => Vacant space recipients) := by
  intro w vacant
  have same : ∀ r, sentTo r (m.exec w).2 = sentTo r w := fun r => by
    rw [sentTo, (hushed.exec w).sent_eq, sentTo]
  refine ⟨.single fun r => ?_, fun a ran r inside => ?_⟩
  · rw [same]
    exact Nat.le_max_left _ _
  · rw [same]
    exact vacant r inside

theorem sentTo_insertDeliveryRow (messageId recipient r : String) (w : World) :
    sentTo r (insertDeliveryRow messageId recipient w) ≤
      sentTo r w + if recipient = r then 1 else 0 := by
  cases stored : w.store.envelope messageId with
  | none => simp [sentTo, Bus.sent, insertDeliveryRow, stored]
  | some env =>
    simp only [sentTo, Bus.sent, insertDeliveryRow, stored, Option.map_some, Option.toList_some,
      List.singleton_append, passages_passed, enqueues, List.filterMap_cons, Passage.enqueue,
      List.countP_cons, decide_eq_true_eq]
    exact Nat.le_refl _

theorem insertDelivery_fills (messageId : String) (other : r ∉ recipients) :
    Meets (Sends space) (Vacant space (r :: recipients)) (insertDelivery messageId r)
      (fun _ => Vacant space recipients) := by
  refine (Abides.vacant .mayFail).bind fun _ => Meets.step (fun w vacant s => ?_)
    fun w vacant s inside => ?_
  · have more := sentTo_insertDeliveryRow messageId r s w
    show sentTo s (insertDeliveryRow messageId r w) ≤ _
    split at more
    · next same =>
      have free := vacant s (same ▸ List.mem_cons_self)
      omega
    · omega
  · have more := sentTo_insertDeliveryRow messageId r s w
    have apart : r ≠ s := fun same => other (same ▸ inside)
    rw [if_neg apart] at more
    exact Nat.lt_of_le_of_lt more (vacant s (List.mem_cons_of_mem _ inside))

/-- A message to each of the recipients. -/
theorem insertDeliveries_fill (messageId : String) (once : recipients.Nodup) :
    Meets (Sends space) (Vacant space recipients)
      (recipients.forM fun r => insertDelivery messageId r) (fun _ _ => True) := by
  induction recipients with
  | nil => exact Meets.pure fun _ _ => trivial
  | cons r rest ih =>
    obtain ⟨other, once⟩ := List.nodup_cons.mp once
    exact (insertDelivery_fills messageId other).bind fun _ => ih once

theorem insertAsk_vacant (askId messageId fromCell toCell expiresAt : String) :
    Meets (Sends space) (Vacant space recipients)
      (insertAsk askId messageId fromCell toCell expiresAt) (fun _ => Vacant space recipients) :=
  (Abides.vacant .mayFail).bind fun _ =>
    Meets.step (fun _ _ _ => Nat.le_max_left _ _) fun _ vacant => vacant

/-- A computation that writes to each of the recipients at most once. -/
theorem adds_of_sends {m : Act α}
    (sends : ∀ space, Meets (Sends space) (Vacant space recipients) m (fun _ _ => True)) (w : World)
    (r : String) : sentTo r (m.exec w).2 ≤ sentTo r w ∨
      r ∈ recipients ∧ sentTo r (m.exec w).2 ≤ sentTo r w + 1 := by
  have met := sends fun r => if r ∈ recipients then sentTo r w + 1 else 0
  have within := Sends.path (met w fun r inside => by simp [inside]).1 r
  by_cases inside : r ∈ recipients
  · rw [if_pos inside] at within
    exact .inr ⟨inside, by omega⟩
  · rw [if_neg inside] at within
    exact .inl (by omega)

variable [Platform] {caller key : String}

theorem buildEnvelopeWithCaps_hushed (draft : EnvelopeDraft) : Hushed (buildEnvelopeWithCaps draft) :=
  (buildEnvelopeWithCaps_describes draft).weaken (fun _ here => here) fun _ _ _ => trivial

omit [Platform] in
theorem insertEnvelope_hushed (env : Envelope) : Hushed (insertEnvelope env) :=
  (insertEnvelope_stores trivial).weaken (fun _ here => here) fun _ _ _ => trivial

theorem freshSend_sends {p : SendParams} : Meets (Sends space) (Vacant space [p.toCell])
    (freshSend caller p key) (fun _ _ => True) := by
  refine (Abides.vacant (.nextSeq _ _)).bind fun seq => ?_
  refine (Abides.vacant (buildEnvelopeWithCaps_hushed _)).bind fun env => ?_
  refine (Abides.vacant (insertEnvelope_hushed _)).bind fun _ => ?_
  refine (Abides.vacant (.audit _ _ _ _ _ _)).bind fun _ => ?_
  refine (insertDelivery_fills _ List.not_mem_nil).bind fun _ => ?_
  exact (Abides.vacant (.dedupeInsert _ _ _ _ _)).bind fun _ => Meets.pure fun _ _ => trivial

theorem freshAsk_sends {p : AskParams} {askId : String} : Meets (Sends space)
    (Vacant space [p.toCell]) (freshAsk caller p key askId) (fun _ _ => True) := by
  refine (Abides.vacant (.nextSeq _ _)).bind fun seq => ?_
  refine (Abides.vacant (buildEnvelopeWithCaps_hushed _)).bind fun env => ?_
  refine (Abides.vacant (insertEnvelope_hushed _)).bind fun _ => ?_
  refine (Abides.vacant (.audit _ _ _ _ _ _)).bind fun _ => ?_
  refine (Abides.vacant (.audit _ _ _ _ _ _)).bind fun _ => ?_
  refine (insertDelivery_fills _ List.not_mem_nil).bind fun _ => ?_
  refine (Abides.vacant (.silent (.rfc3339After _))).bind fun expiresAt => ?_
  refine (insertAsk_vacant _ _ _ _ _).bind fun _ => ?_
  exact (Abides.vacant (.dedupeInsert _ _ _ _ _)).bind fun _ => Meets.pure fun _ _ => trivial

theorem freshBroadcast_sends {p : BroadcastParams} {included denied : List String}
    (once : included.Nodup) : Meets (Sends space) (Vacant space included)
      (freshBroadcast caller p included denied key) (fun _ _ => True) := by
  refine (Abides.vacant (buildEnvelopeWithCaps_hushed _)).bind fun env => ?_
  refine (Abides.vacant (insertEnvelope_hushed _)).bind fun _ => ?_
  refine (Abides.vacant (.forM fun _ => .audit _ _ _ _ _ _)).bind fun _ => ?_
  refine (Abides.vacant (.audit _ _ _ _ _ _)).bind fun _ => ?_
  refine (insertDeliveries_fill _ once).bind fun _ => ?_
  refine Meets.weaken (P := Vacant space []) (fun _ _ _ none => by cases none) (fun _ _ done => done) ?_
  exact (Abides.vacant (.dedupeInsert _ _ _ _ _)).bind fun _ => Meets.pure fun _ _ => trivial

theorem deduped_sends {body : String} {replay : DedupeHit → Answer} {fresh : Act Answer}
    (met : Meets (Sends space) (Vacant space recipients) fresh (fun _ _ => True)) :
    Meets (Sends space) (Vacant space recipients) (deduped caller key body replay fresh)
      (fun _ _ => True) := by
  refine (Abides.vacant (.query _)).bind fun hit => ?_
  cases hit with
  | none => exact met
  | some hit =>
    dsimp only
    split
    · exact Meets.pure fun _ _ => trivial
    · exact Meets.throw

theorem submitSend_sends {p : SendParams} : Meets (Sends space) (Vacant space [p.toCell])
    (submitSend caller p) (fun _ _ => True) :=
  (Abides.vacant (.silent (keyOrNew_silent _))).bind fun _ => deduped_sends freshSend_sends

theorem submitAsk_sends {p : AskParams} : Meets (Sends space) (Vacant space [p.toCell])
    (submitAsk caller p) (fun _ _ => True) :=
  (Abides.vacant (.silent (keyOrNew_silent _))).bind fun _ =>
    (Abides.vacant (.silent .newUuidv7)).bind fun _ => deduped_sends freshAsk_sends

theorem submitBroadcast_sends {p : BroadcastParams} {included denied : List String}
    (once : included.Nodup) : Meets (Sends space) (Vacant space included)
      (submitBroadcast caller p included denied) (fun _ _ => True) :=
  (Abides.vacant (.silent (keyOrNew_silent _))).bind fun _ =>
    deduped_sends (freshBroadcast_sends once)

theorem submitReply_sends {p : ReplyParams} {ask : AskRow} : Meets (Sends space)
    (Vacant space [ask.fromCell]) (submitReply caller p ask) (fun _ _ => True) := by
  refine (Abides.vacant (.silent (keyOrNew_silent _))).bind fun key => ?_
  refine (Abides.vacant (.nextSeq _ _)).bind fun seq => ?_
  refine (Abides.vacant (buildEnvelopeWithCaps_hushed _)).bind fun env => ?_
  refine (Abides.vacant (replyPrecheck_keeps _ _)).bind fun outcome => ?_
  cases outcome with
  | duplicateIdentical messageId => exact Meets.pure fun _ _ => trivial
  | conflict => exact Meets.pure fun _ _ => trivial
  | recorded =>
    refine Meets.bind (Q := fun _ _ => True) ?_ fun _ => Meets.pure fun _ _ => trivial
    refine (Abides.vacant (insertEnvelope_hushed _)).bind fun _ => ?_
    refine (Abides.vacant (.audit _ _ _ _ _ _)).bind fun _ => ?_
    refine (Abides.vacant (.settleAsk fun _ => by simp)).bind fun _ => ?_
    exact (insertDelivery_fills _ List.not_mem_nil).weaken (fun _ vacant => vacant)
      fun _ _ _ => trivial

/-- A reply to an ask that no longer waits writes nothing. -/
theorem submitReply_spent {p : ReplyParams} {ask : AskRow} {w : World}
    (settled : ¬ (w.store.ask p.askId).any (·.state = .pending) = true) :
    Confined room drafts allowed w ((submitReply caller p ask).exec w).2 := by
  let P : World → Prop := fun s => s.store.asks = w.store.asks
  have numbered : Meets (Confined room drafts allowed) P (nextSeq caller ask.fromCell)
      (fun _ => P) := by
    refine fun s here => ⟨((Abides.nextSeq _ _) s trivial).1, fun seq ran => ?_⟩
    have met : Meets (Statement .main) (·.At (snap s)) (nextSeq caller ask.fromCell) _ :=
      nextSeq_meets caller ask.fromCell
    obtain ⟨c, -, after⟩ := (met s s.at_snapshot).2 seq ran
    exact (congrArg Store.asks after.store).trans here
  have built : ∀ draft, Meets (Confined room drafts allowed) P (buildEnvelopeWithCaps draft)
      (fun _ => P) := by
    refine fun draft s here => ⟨((buildEnvelopeWithCaps_describes draft) s trivial).1,
      fun env ran => ?_⟩
    have met : Meets (Statement .main) (·.At (snap s)) (buildEnvelopeWithCaps draft)
      (Built (snap s) draft) := buildEnvelopeWithCaps_meets draft
    obtain ⟨-, n, -, -, after⟩ := (met s s.at_snapshot).2 env ran
    exact (congrArg Store.asks after.store).trans here
  have checked : ∀ env, Meets (Confined room drafts allowed) P (replyPrecheck p.askId env)
      (fun outcome _ => outcome ≠ .recorded) := by
    intro env
    refine Meets.bind (Q := fun row _ => ¬ row.any (fun ask : Ask => ask.state = .pending) = true)
      (fun s here => ⟨((Abides.query _) s trivial).1, fun row ran => ?_⟩) fun row =>
        meets_known (fun _ known => known) fun known => ?_
    · rw [query_reads ran, Store.ask, here]
      exact settled
    · cases row with
      | none => exact Meets.pure fun _ _ => nofun
      | some ask =>
        dsimp only
        split
        · split <;> exact Meets.pure fun _ _ => nofun
        · next waits => exact absurd (by simpa using waits) known
  have met : Meets (Confined room drafts allowed) P (submitReply caller p ask) (fun _ _ => True) := by
    refine ((Abides.silent (keyOrNew_silent _)).around fun s here =>
      (congrArg Store.asks (keyOrNew_silent _ s).store).trans here).bind fun key => ?_
    refine numbered.bind fun seq => (built _).bind fun env => (checked env).bind fun outcome =>
      meets_known (fun _ known => known) fun known => ?_
    cases outcome with
    | recorded => exact absurd rfl known
    | duplicateIdentical messageId => exact Meets.pure fun _ _ => trivial
    | conflict => exact Meets.pure fun _ _ => trivial
  exact .path (met w rfl).1

omit [Platform] in
/-- What is confined to the rest enqueues nothing. -/
theorem sentTo_of_confined (confined : ∀ room drafts allowed, Confined room drafts allowed w w')
    (r : String) : sentTo r w' ≤ sentTo r w :=
  (Confined.sentTo_eq (confined (fun _ => 0) (fun _ => True) fun _ _ => False) r).le

/-- A send whose key is not bound writes to its recipient, once. -/
theorem submitSend_adds (caller : String) (p : SendParams) (w : World) (r : String) :
    sentTo r ((submitSend caller p).exec w).2 ≤ sentTo r w ∨
      Unbound caller p.idempotencyKey w ∧ r ∈ [p.toCell] ∧
        sentTo r ((submitSend caller p).exec w).2 ≤ sentTo r w + 1 := by
  by_cases unbound : Unbound caller p.idempotencyKey w
  · exact (adds_of_sends (fun _ => submitSend_sends) w r).imp_right fun more => ⟨unbound, more⟩
  · exact .inl (sentTo_of_confined (fun _ _ _ => submitSend_replays unbound) r)

theorem submitAsk_adds (caller : String) (p : AskParams) (w : World) (r : String) :
    sentTo r ((submitAsk caller p).exec w).2 ≤ sentTo r w ∨
      p.unbound caller w ∧ r ∈ [p.toCell] ∧
        sentTo r ((submitAsk caller p).exec w).2 ≤ sentTo r w + 1 := by
  by_cases unbound : p.unbound caller w
  · exact (adds_of_sends (fun _ => submitAsk_sends) w r).imp_right fun more => ⟨unbound, more⟩
  · exact .inl (sentTo_of_confined (fun _ _ _ => submitAsk_replays unbound) r)

/-- A broadcast writes to each of its recipients. -/
theorem submitBroadcast_adds (caller : String) (p : BroadcastParams) (denied : List String)
    (once : included.Nodup) (w : World) (r : String) :
    sentTo r ((submitBroadcast caller p included denied).exec w).2 ≤ sentTo r w ∨
      Unbound caller p.idempotencyKey w ∧ r ∈ included ∧
        sentTo r ((submitBroadcast caller p included denied).exec w).2 ≤ sentTo r w + 1 := by
  by_cases unbound : Unbound caller p.idempotencyKey w
  · exact (adds_of_sends (fun _ => submitBroadcast_sends once) w r).imp_right fun more =>
      ⟨unbound, more⟩
  · exact .inl (sentTo_of_confined (fun _ _ _ => submitBroadcast_replays unbound) r)

/-- A reply to a waiting ask writes to the asker. -/
theorem submitReply_adds (caller : String) (p : ReplyParams) (ask : AskRow) (w : World) (r : String) :
    sentTo r ((submitReply caller p ask).exec w).2 ≤ sentTo r w ∨
      (w.store.ask p.askId).any (·.state = .pending) = true ∧ r ∈ [ask.fromCell] ∧
        sentTo r ((submitReply caller p ask).exec w).2 ≤ sentTo r w + 1 := by
  by_cases waits : (w.store.ask p.askId).any (·.state = .pending) = true
  · exact (adds_of_sends (fun _ => submitReply_sends) w r).imp_right fun more => ⟨waits, more⟩
  · exact .inl (sentTo_of_confined (fun _ _ _ => submitReply_spent waits) r)

end Amounts
end Crewd.Bus
