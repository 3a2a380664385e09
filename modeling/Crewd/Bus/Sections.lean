import Crewd.Bus.Invariant

/-! What the sections of the submitting tools do, from any state in which the
invariant holds: they are made of elementary steps, and their success says which
rows were added. -/
namespace Crewd.Bus
open Autocommit Concurrent Table

variable [Platform] {self : Actor}

theorem Statement.ofQuiet (w w' : World) (same : w.Quiet w') : Statement self w w' := .quiet same

section Snapshots

abbrev Snap := Snapshot Store Memory Mark

def snap (w : World) : Snap := w.snapshot

def Snap.counted (now : Snap) (c : List SeqCounter) : Snap :=
  { now with store := { now.store with seqCounters := c } }

def Snap.drawn (now : Snap) (minted : Nat) : Snap := { now with minted := minted }

def Snap.logged (now : Snap) (draft : AuditEventDraft) : Snap :=
  { now with audit := now.audit ++ [draft] }

def Snap.addEnvelope (now : Snap) (env : Envelope) : Snap :=
  { now with store := { now.store with envelopes := now.store.envelopes ++ [env] } }

/-- The delivery row of a fresh message. -/
def freshDelivery (messageId recipient : String) : Delivery :=
  ⟨messageId, recipient, .queued, 0, none, 0⟩

def Snap.addDelivery (now : Snap) (env : Envelope) (recipient : String) : Snap := { now with
  store := { now.store with
    deliveries := now.store.deliveries ++ [freshDelivery env.messageId recipient] }
  history := .passed (.enqueued env recipient) :: now.history }

def Snap.addAsk (now : Snap) (row : Ask) : Snap :=
  { now with store := { now.store with asks := now.store.asks ++ [row] } }

def Snap.bind (now : Snap) (row : Dedupe) : Snap :=
  { now with store := { now.store with dedupe := now.store.dedupe ++ [row] } }

end Snapshots

section Primitives
variable {now : Snap}

omit [Platform] in
theorem nextFor_withCounter (st : Store) (fromCell toCell s r : String) :
    (st.withCounter fromCell toCell).nextFor s r = st.nextFor s r := by
  unfold Store.withCounter
  split
  · rfl
  · rename_i absent
    simp only [Store.nextFor, List.find?_append]
    cases found : st.seqCounters.find? (·.is s r) with
    | some row => rfl
    | none =>
      by_cases same : (⟨fromCell, toCell, 1⟩ : SeqCounter).is s r = true
      · simp [same]
      · simp [same]

omit [Platform] in
theorem withCounter_only (st : Store) (fromCell toCell : String) :
    ∃ c, st.withCounter fromCell toCell = { st with seqCounters := c } := by
  unfold Store.withCounter
  split
  · exact ⟨_, rfl⟩
  · exact ⟨_, rfl⟩

omit [Platform] in
theorem nextFor_countUp {st : Store} (found : st.seqCounters.find? (·.is fromCell toCell) = some row) :
    row.nextSeq = st.nextFor fromCell toCell ∧
    (st.countUp fromCell toCell).nextFor fromCell toCell = row.nextSeq + 1 ∧
    ∀ s r, st.nextFor s r ≤ (st.countUp fromCell toCell).nextFor s r := by
  have lookup : ∀ s r, (st.countUp fromCell toCell).seqCounters.find? (·.is s r) =
      (st.seqCounters.find? (·.is s r)).map fun row =>
        if row.is fromCell toCell then { row with nextSeq := row.nextSeq + 1 } else row := by
    intro s r
    rw [Store.countUp, updateWhere, List.find?_map]
    congr 2
    funext row
    simp only [Function.comp_apply]
    split <;> rfl
  have hit : row.is fromCell toCell = true := by simpa using List.find?_some found
  refine ⟨by simp [Store.nextFor, found], ?_, fun s r => ?_⟩
  · simp [Store.nextFor, lookup, found, hit]
  · simp only [Store.nextFor, lookup]
    cases st.seqCounters.find? (·.is s r) with
    | none => exact Nat.le_refl _
    | some other =>
      simp only [Option.map_some, Option.getD_some]
      split
      · exact Nat.le_succ _
      · exact Nat.le_refl _

/-- Only the counters differ, besides input and identifiers, and none goes back. -/
private structure CountersOnly (w w' : World) : Prop where
  store : ∃ c, w'.store = { w.store with seqCounters := c }
  forward : ∀ s r, w.store.nextFor s r ≤ w'.store.nextFor s r
  audit : w'.audit = w.audit
  memory : w'.memory = w.memory
  history : w'.history = w.history
  minted : w.minted ≤ w'.minted

omit [Platform] in
private theorem CountersOnly.ofQuiet (w w' : World) (same : w.Quiet w') : CountersOnly w w' :=
  ⟨⟨_, same.store⟩, by rw [same.store]; exact fun _ _ => Nat.le_refl _, same.audit, same.memory,
    same.history, same.minted⟩

omit [Platform] in
private theorem CountersOnly.path (path : Relation.ReflTransGen CountersOnly w w') :
    CountersOnly w w' := by
  induction path with
  | refl => exact .ofQuiet _ _ .rfl
  | tail _ last ih =>
    obtain ⟨⟨c, store⟩, forward, audit, memory, history, minted⟩ := ih
    obtain ⟨⟨c', store'⟩, forward', audit', memory', history', minted'⟩ := last
    exact ⟨⟨c', by rw [store', store]⟩, fun s r => Nat.le_trans (forward s r) (forward' s r),
      audit'.trans audit, memory'.trans memory, history'.trans history,
      Nat.le_trans minted minted'⟩

/-- The number drawn is the pair's next one. -/
structure Snap.Drew (now : Snap) (fromCell toCell : String) (seq : Nat) (c : List SeqCounter) :
    Prop where
  number : seq = now.store.nextFor fromCell toCell
  counted : (now.counted c).store.nextFor fromCell toCell = seq + 1

omit [Platform] in
private theorem drawing_meets (fromCell toCell : String) :
    Meets CountersOnly (·.At now) (do
      execute (·.withCounter fromCell toCell)
      match ← query (·.seqCounters.find? (·.is fromCell toCell)) with
      | none => throw (db "Query returned no rows")
      | some row =>
        execute (·.countUp fromCell toCell)
        pure row.nextSeq : Act Nat)
      (fun seq w => ∃ c, now.Drew fromCell toCell seq c ∧ w.At (now.counted c)) := by
  refine (meets_execute CountersOnly.ofQuiet fun w here => ?_).bind fun _ => ?_
  · exact ⟨withCounter_only _ _ _,
      fun s r => Nat.le_of_eq (nextFor_withCounter _ _ _ s r).symm, rfl, rfl, rfl, Nat.le_refl _⟩
  · refine (meets_query CountersOnly.ofQuiet _).bind fun row => meets_from fun w ⟨here, found⟩ =>
      ⟨_, here, ?_⟩
    cases row with
    | none => exact Meets.throw
    | some row =>
      obtain ⟨number, counted, forward⟩ := nextFor_countUp found.symm
      refine (meets_execute CountersOnly.ofQuiet fun w here => ?_).bind fun _ =>
        Meets.pure fun w here => ?_
      · exact ⟨⟨_, rfl⟩, by rw [here.store]; exact forward, rfl, rfl, rfl, Nat.le_refl _⟩
      · obtain ⟨c, only⟩ := withCounter_only now.store fromCell toCell
        have final : (now.store.withCounter fromCell toCell).countUp fromCell toCell =
            { now.store with seqCounters :=
              ((now.store.withCounter fromCell toCell).countUp fromCell toCell).seqCounters } := by
          rw [only]
          rfl
        refine ⟨_, ⟨number.trans (nextFor_withCounter _ _ _ _ _), counted⟩, ?_⟩
        exact ⟨here.store.trans final, here.audit, here.memory, here.history, here.minted⟩

theorem nextSeq_meets (fromCell toCell : String) :
    Meets (Statement self) (·.At now) (nextSeq fromCell toCell) (fun seq w =>
      ∃ c, now.Drew fromCell toCell seq c ∧ w.At (now.counted c)) := by
  refine (meets_mayFail Statement.ofQuiet).bind fun _ => meets_atomically (T := CountersOnly)
    (Q := fun seq w => ∃ c, now.Drew fromCell toCell seq c ∧ w.At (now.counted c)) ?_
    (fun w w' seq _ path drew => ?_) (fun w w' _ path => ?_)
  · refine Meets.bind (drawing_meets fromCell toCell) fun seq => ?_
    refine Meets.bind (Q := fun _ w => ∃ c, now.Drew fromCell toCell seq c ∧
      w.At (now.counted c)) ?_ fun _ => Meets.pure fun _ drew => drew
    refine meets_from fun w ⟨c, drew, here⟩ => ⟨_, here, ?_⟩
    exact (meets_mayFail CountersOnly.ofQuiet).weaken (fun _ h => h) fun _ _ h => ⟨c, drew, h⟩
  · obtain ⟨⟨c, store⟩, forward, audit, memory, history, minted⟩ := CountersOnly.path path
    refine ⟨.head (.counters c (by rw [store] at forward; exact forward)) (.single (.quiet ?_)), drew⟩
    exact ⟨store, audit, memory, history, minted⟩
  · obtain ⟨_, _, audit, memory, history, minted⟩ := CountersOnly.path path
    exact .single (.quiet ⟨rfl, audit, memory, rfl, minted⟩)

/-- The envelope carries what the tool asked for. -/
structure EnvelopeDraft.Describes (draft : EnvelopeDraft) (env : Envelope) : Prop where
  kind : env.kind = draft.kind
  msgType : env.msgType = draft.msgType
  fromCell : env.fromCell = draft.fromCell
  toCell : env.toCell = draft.toCell
  body : env.body = draft.body
  fileRefs : env.fileRefs = draft.fileRefs
  askId : env.askId = draft.askId
  replyTo : env.replyTo = draft.replyTo
  seq : env.seq = draft.seq
  taint : env.taint = Crewd.taint

/-- A described envelope under an identifier drawn after the snapshot. -/
def Built (now : Snap) (draft : EnvelopeDraft) (env : Envelope)
    (w : World) : Prop :=
  draft.Describes env ∧ ∃ n, now.minted ≤ n ∧ env.messageId = Platform.uuid n ∧
    w.At (now.drawn (n + 1))

theorem buildEnvelope_meets (draft : EnvelopeDraft) :
    Meets (Statement self) (·.At now) (buildEnvelope draft) (Built now draft) := by
  refine (meets_newUuidv7 Statement.ofQuiet).bind fun messageId w ⟨n, le, same, here⟩ => ?_
  subst same
  refine ((Silent.nowRfc3339.meets Statement.ofQuiet).bind fun createdAt =>
    ((Silent.rfc3339After _).meets Statement.ofQuiet).bind fun expiresAt =>
      Meets.pure fun w here => ?_) w here
  exact ⟨⟨rfl, rfl, rfl, rfl, rfl, rfl, rfl, rfl, rfl, rfl⟩, n, le, rfl, here⟩

theorem buildEnvelopeWithCaps_meets (draft : EnvelopeDraft) :
    Meets (Statement self) (·.At now) (buildEnvelopeWithCaps draft) (Built now draft) := by
  refine (buildEnvelope_meets draft).bind fun env w ⟨described, n, le, same, here⟩ => ?_
  refine ((meets_readMemory _).bind fun acl => Meets.pure fun w ⟨here, _⟩ => ?_) w here
  exact ⟨{ described with }, n, le, same, here⟩

theorem keyOrNew_meets (key : Option String) :
    Meets (Statement self) (·.At now) (keyOrNew key) (fun _ w =>
      ∃ minted, now.minted ≤ minted ∧ w.At (now.drawn minted)) := by
  cases key with
  | some key => exact Meets.pure fun w here => ⟨now.minted, Nat.le_refl _, here⟩
  | none =>
    refine (meets_newUuidv7 Statement.ofQuiet).weaken (fun _ h => h) fun _ w ⟨n, le, _, here⟩ => ?_
    exact ⟨n + 1, by omega, here⟩

/-- No row of the snapshot uses the identifier, which has been handed out. -/
structure Snap.Fresh (now : Snap) (name : String) : Prop where
  minted : ∃ n < now.minted, name = Platform.uuid n
  envelope : ∀ env ∈ now.store.envelopes, env.messageId ≠ name
  delivery : ∀ d ∈ now.store.deliveries, d.envelopeId ≠ name
  ask : ∀ ask ∈ now.store.asks, ask.askId ≠ name

/-- An identifier drawn after the snapshot of a state is new to its tables. -/
theorem Inv.fresh (inv : Inv w) (later : w.minted ≤ n) (less : n < minted) :
    ((snap w).drawn minted).Fresh (Platform.uuid n) := by
  have other : ∀ name, Minted w name → name ≠ Platform.uuid n := by
    rintro _ ⟨m, small, rfl⟩ same
    have := Platform.uuid_injective same
    omega
  refine ⟨⟨n, less, rfl⟩, fun env h => other _ (inv.envelopeMinted env h), fun d h => ?_,
    fun ask h => other _ (inv.askMinted ask h)⟩
  obtain ⟨env, member, same⟩ := inv.deliveryKnown d h
  rw [← same]
  exact other _ (inv.envelopeMinted env member)

theorem insertEnvelope_meets {env : Envelope} (minted : ∃ n < now.minted, env.messageId = Platform.uuid n)
    (new : ∀ e ∈ now.store.envelopes, e.messageId ≠ env.messageId) :
    Meets (Statement self) (·.At now) (insertEnvelope env) 
      (fun _ w => w.At (now.addEnvelope env)) := by
  have appended : ∀ st : Store, st.envelopes = now.store.envelopes →
      replaceInto (·.messageId = env.messageId) env st.envelopes = st.envelopes ++ [env] :=
    fun st same => replaceInto_new (by simpa [same] using new)
  refine (meets_execute Statement.ofQuiet fun w here => ?_).weaken (fun _ h => h) fun _ w here => ?_
  · rw [appended w.store (by rw [here.store])]
    obtain ⟨n, less, same⟩ := minted
    exact .envelope env ⟨n, Nat.lt_of_lt_of_le less here.minted, same⟩ (by rw [here.store]; exact new)
  · rw [appended now.store rfl] at here
    exact here

theorem audit_meets {kind outcome : String} {messageId fromCell toCell : Option String}
    {detail : Option Json} :
    Meets (Statement self) (·.At now) (audit kind messageId fromCell toCell outcome detail)
      (fun _ w => w.At (now.logged ⟨kind, messageId, fromCell, toCell, outcome, detail⟩)) :=
  meets_audit Statement.ofQuiet fun _ _ => .event _

/-- What holds of a message when a section enqueues it, said of the snapshot. -/
structure Snap.Admits (now : Snap) (env : Envelope) (recipient : String) : Prop where
  found : now.store.envelope env.messageId = some env
  fanned : env.kind = .broadcast → env.seq = 0
  numbered : env.kind ≠ .broadcast → env.seq < now.store.nextFor env.fromCell recipient ∧
    ∀ earlier, (earlier, recipient) ∈ enqueues (passages now.history) →
      earlier.fromCell = env.fromCell → earlier.seq < env.seq

theorem insertDelivery_meets {env : Envelope} {recipient : String}
    (audited : Enqueued now.audit env.messageId recipient ∨
      FannedOut now.audit env.messageId recipient)
    (new : ∀ d ∈ now.store.deliveries, d.is env.messageId recipient = false)
    (admits : now.Admits env recipient) :
    Meets (Statement self) (·.At now) (insertDelivery env.messageId recipient)
      (fun _ w => w.At (now.addDelivery env recipient)) := by
  have inserted : ∀ w : World, w.At now → insertDeliveryRow env.messageId recipient w = { w with
      store := { w.store with
        deliveries := w.store.deliveries ++ [⟨env.messageId, recipient, .queued, 0, none, 0⟩] }
      history := .passed (.enqueued env recipient) :: w.history } := by
    intro w here
    rw [insertDeliveryRow, replaceInto_new (by rw [here.store]; exact new), here.store, admits.found]
    rfl
  have stored : env ∈ now.store.envelopes := List.mem_of_find?_eq_some admits.found
  refine (meets_mayFail Statement.ofQuiet).bind fun _ => Meets.step (fun w here => ?_)
    fun w here => ?_
  · rw [inserted w here]
    refine .delivery env recipient (by rw [here.audit]; exact audited)
      (by rw [here.store]; exact stored) (by rw [here.store]; exact new) ?_
    exact ⟨admits.fanned, by rw [here.store, here.history]; exact admits.numbered⟩
  · rw [inserted w here]
    refine ⟨?_, here.audit, here.memory, ?_, here.minted⟩
    · simp only [Snap.addDelivery, here.store, freshDelivery]
    · simp only [Snap.addDelivery, here.history]

theorem insertAsk_meets {askId messageId fromCell toCell expiresAt : String}
    (minted : ∃ n < now.minted, askId = Platform.uuid n)
    (new : ∀ ask ∈ now.store.asks, ask.askId ≠ askId)
    (opened : Opened now.store ⟨askId, messageId, fromCell, toCell, expiresAt, .pending, none⟩) :
    Meets (Statement self) (·.At now) (insertAsk askId messageId fromCell toCell expiresAt)
      (fun _ w => w.At (now.addAsk
        ⟨⟨askId, messageId, fromCell, toCell, expiresAt, .pending, none⟩, none⟩)) := by
  have appended : ∀ st : Store, st.asks = now.store.asks →
      replaceInto (·.askId = askId)
        ⟨⟨askId, messageId, fromCell, toCell, expiresAt, .pending, none⟩, none⟩ st.asks =
      st.asks ++ [⟨⟨askId, messageId, fromCell, toCell, expiresAt, .pending, none⟩, none⟩] :=
    fun st same => replaceInto_new (by simpa [same] using new)
  refine (meets_execute Statement.ofQuiet fun w here => ?_).weaken (fun _ h => h) fun _ w here => ?_
  · rw [appended w.store (by rw [here.store])]
    obtain ⟨n, less, same⟩ := minted
    exact .ask _ rfl rfl rfl ⟨n, Nat.lt_of_lt_of_le less here.minted, same⟩
      (by rw [here.store]; exact new) (by rw [here.store]; exact opened)
  · rw [appended now.store rfl] at here
    exact here

theorem dedupeInsert_meets {caller key messageId hash : String} {askId : Option String}
    (bound : ∀ now', Bound now.store ⟨⟨messageId, askId, hash⟩, caller, key, now'⟩)
    (unbound : now.store.binding caller key = none) :
    Meets (Statement self) (·.At now) (dedupeInsert caller key messageId askId hash)
      (fun _ w => ∃ createdAt,
        w.At (now.bind ⟨⟨messageId, askId, hash⟩, caller, key, createdAt⟩)) := by
  have new : ∀ known ∈ now.store.dedupe, known.is caller key = false := by
    simpa [Store.binding] using unbound
  refine (Silent.nowRfc3339.meets Statement.ofQuiet).bind fun createdAt => ?_
  have appended : ∀ st : Store, st.dedupe = now.store.dedupe →
      replaceInto (·.is caller key) ⟨⟨messageId, askId, hash⟩, caller, key, createdAt⟩ st.dedupe =
      st.dedupe ++ [⟨⟨messageId, askId, hash⟩, caller, key, createdAt⟩] :=
    fun st same => replaceInto_new (by rw [same]; exact new)
  refine (meets_execute Statement.ofQuiet fun w here => ?_).weaken (fun _ h => h) fun _ w here => ?_
  · rw [appended w.store (by rw [here.store])]
    exact .binding _ (by rw [here.store]; exact bound createdAt) (by rw [here.store]; exact new)
  · rw [appended now.store rfl] at here
    exact ⟨createdAt, here⟩

end Primitives
end Crewd.Bus
