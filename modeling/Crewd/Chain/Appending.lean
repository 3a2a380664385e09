import Crewd.Chain.Verified

/-! Appending to the chain: what one append leaves in the file and in the head,
and that a run of successful appends verifies, whenever the file is reopened. -/
namespace Crewd
open HashChain

section Chained

variable [Platform]

/-- Events that follow one another from the genesis, each with its own hash. -/
structure Chained (events : List AuditEvent) : Prop where
  linked : Linked AuditEvent.prevHash AuditEvent.hash genesisHash events
  hashed : ∀ event ∈ events, event.hash = eventHash (event.toValue.remove "hash") event.prevHash
  plain : ∀ event ∈ events, plain event.detail

def lastHash (events : List AuditEvent) : String := head AuditEvent.hash genesisHash events

omit [Platform] in
@[simp] theorem lastHash_concat (events : List AuditEvent) (event : AuditEvent) :
    lastHash (events ++ [event]) = event.hash := head_concat event

theorem Chained.nil : Chained [] where
  linked := linked_nil
  hashed := by simp
  plain := by simp

theorem event_hash (draft : AuditEventDraft) (eventId ts headHash : String) :
    (draft.event eventId ts headHash).hash =
      eventHash ((draft.event eventId ts headHash).toValue.remove "hash") headHash := by
  have covers := remove_toValue (draft.event eventId ts headHash) ""
  exact congrArg (eventHash · headHash) covers

theorem Chained.concat {events : List AuditEvent} {draft : AuditEventDraft} {eventId ts : String}
    (chained : Chained events) (known : Crewd.plain draft.detail) :
    Chained (events ++ [draft.event eventId ts (lastHash events)]) where
  linked := (linked_concat _).mpr ⟨chained.linked, rfl⟩
  hashed := by
    intro event member
    rcases List.mem_append.mp member with old | new
    · exact chained.hashed event old
    · obtain rfl := List.mem_singleton.mp new
      exact event_hash draft eventId ts (lastHash events)
  plain := by
    intro event member
    rcases List.mem_append.mp member with old | new
    · exact chained.plain event old
    · obtain rfl := List.mem_singleton.mp new
      exact known

variable [SerdeJson]

omit [Platform] in
theorem lines_read (reads : ReadsBack) : ∀ {events : List AuditEvent},
    (∀ event ∈ events, plain event.detail) →
    ∃ values, (events.map AuditEvent.line).mapM SerdeJson.fromStr = some values ∧
      List.Forall₂ (fun value event => value.1 = event.toValue) values events := by
  intro events
  induction events with
  | nil => intro _; exact ⟨[], rfl, .nil⟩
  | cons event rest ih =>
    intro known
    obtain ⟨here, later⟩ := List.forall_mem_cons.mp known
    obtain ⟨values, held, same⟩ := ih later
    obtain ⟨value, read, holds⟩ := Option.map_eq_some_iff.mp (reads event here)
    exact ⟨value :: values, (mapM_cons_iff read _ _).mpr ⟨values, held, rfl⟩, .cons holds same⟩

omit [SerdeJson] in
/-- The values of a chain link up as its events do. -/
theorem values_linked {values : List Value} {events : List AuditEvent}
    (same : List.Forall₂ (fun value event => value.1 = event.toValue) values events)
    (hashed : ∀ event ∈ events, event.hash = eventHash (event.toValue.remove "hash") event.prevHash)
    {start : String} (linked : Linked AuditEvent.prevHash AuditEvent.hash start events) :
    Linked prevHashOf digestOf start values ∧ (∀ value ∈ values, Sealed value) ∧
      head digestOf start values = head AuditEvent.hash start events := by
  induction same generalizing start with
  | nil => exact ⟨trivial, by simp, rfl⟩
  | @cons value event values events holds _ ih =>
    obtain ⟨here, later⟩ := List.forall_mem_cons.mp hashed
    have prev : prevHashOf value = event.prevHash := by
      rw [prevHashOf, holds, prevHash_toValue]
    have digest : digestOf value = event.hash := by
      rw [digestOf, prev, holds, here]
    have hash : hashOf value = event.hash := by
      rw [hashOf, holds, hash_toValue]
    obtain ⟨links, intact, heads⟩ := ih later linked.2
    refine ⟨⟨prev.trans linked.1, ?_⟩, ?_, ?_⟩
    · rw [digest]
      exact links
    · exact List.forall_mem_cons.mpr ⟨digest.trans hash.symm, intact⟩
    · rw [head, digest]
      exact heads

/-- The file holds these events. -/
def Contains (file : Option ByteArray) (events : List AuditEvent) : Prop :=
  match file with
  | none => events = []
  | some bytes => bytes = (String.ofList (logText events)).toUTF8

omit [Platform] [SerdeJson] in
theorem Contains.concat {file : Option ByteArray} {events : List AuditEvent} (event : AuditEvent)
    (contains : Contains file events) : Contains
      (some (file.getD .empty ++ (String.ofList (event.line ++ ['\n'])).toUTF8)) (events ++ [event]) := by
  have before : file.getD .empty = (String.ofList (logText events)).toUTF8 := by
    cases file with
    | none =>
      obtain rfl : events = [] := contains
      rfl
    | some bytes => exact contains
  change _ = (String.ofList (logText (events ++ [event]))).toUTF8
  simp only [before, logText, List.flatMap_append, List.flatMap_singleton, String.ofList_append,
    String.toUTF8_eq_toByteArray, String.toByteArray_append]

omit [Platform] in
theorem Contains.events {file : Option ByteArray} {events : List AuditEvent}
    (contains : Contains file events) :
    eventsOf file = (events.map AuditEvent.line).mapM SerdeJson.fromStr := by
  cases file with
  | none =>
    obtain rfl : events = [] := contains
    rfl
  | some bytes =>
    obtain rfl : bytes = (String.ofList (logText events)).toUTF8 := contains
    rw [eventsOf, readToString_utf8, Option.bind_some, eventLines_events]

theorem Contains.verifies {file : Option ByteArray} {events : List AuditEvent} (reads : ReadsBack)
    (chained : Chained events) (contains : Contains file events) :
    AuditChain.verify file = .ok (lastHash events) events.length := by
  obtain ⟨values, held, same⟩ := lines_read reads chained.plain
  obtain ⟨links, intact, heads⟩ := values_linked same chained.hashed chained.linked
  exact verify_ok_iff.mpr
    ⟨values, contains.events.trans held, links, intact, heads.symm, same.length_eq.symm⟩

omit [Platform] in
theorem Contains.opens {file : Option ByteArray} {events : List AuditEvent} (reads : ReadsBack)
    (known : ∀ event ∈ events, plain event.detail) (contains : Contains file events) :
    AuditChain.openAt file = .ok ⟨lastHash events⟩ := by
  cases file with
  | none =>
    obtain rfl : events = [] := contains
    rfl
  | some bytes =>
    obtain rfl : bytes = (String.ofList (logText events)).toUTF8 := contains
    rw [AuditChain.openAt, readToString_utf8]
    dsimp only
    rw [eventLines_events]
    obtain rfl | ⟨before, event, rfl⟩ := events.eq_nil_or_concat'
    · rfl
    · obtain ⟨value, read, holds⟩ := Option.map_eq_some_iff.mp (reads event (known event (by simp)))
      rw [List.map_append, List.map_singleton, List.getLast?_concat]
      dsimp only
      rw [read]
      dsimp only
      rw [holds, head_toValue, lastHash_concat]

end Chained

section Runs

variable [Platform] [SerdeJson]

/-- The state of a daemon whose file holds the given events and whose chain, while
it has one, continues them. -/
structure Continues (events : List AuditEvent) (s : ChainState) : Prop where
  chained : Chained events
  contains : Contains s.file events
  headed : ∀ chain, s.chain = some chain → chain.headHash = lastHash events

omit [SerdeJson] in
theorem Continues.new : Continues [] .new where
  chained := .nil
  contains := rfl
  headed := by
    intro chain same
    rw [← Option.some.inj same]
    rfl

variable {events : List AuditEvent} {s : ChainState} {chain : AuditChain}
  {draft : AuditEventDraft} {eventId ts : String}

theorem Continues.reopened (reads : ReadsBack) (continues : Continues events s) :
    Continues events (s.step .reopen) ∧ (s.step .reopen).chain = some ⟨lastHash events⟩ := by
  have opened := continues.contains.opens reads continues.chained.plain
  have chain : (s.step .reopen).chain = some ⟨lastHash events⟩ := by
    rw [ChainState.step, opened]
    rfl
  refine ⟨⟨continues.chained, continues.contains, ?_⟩, chain⟩
  intro other same
  rw [← Option.some.inj (chain.symm.trans same)]

omit [SerdeJson] in
theorem append_known (chain : AuditChain) (file : Option ByteArray) (eventId ts : String)
    (known : draft.kind ∈ auditKinds) (write : Write) : chain.append file eventId ts draft write =
      let event := draft.event eventId ts chain.headHash
      let line := (String.ofList (event.line ++ ['\n'])).toUTF8
      match write with
      | .unopened e => (.error e, chain, file)
      | .cut e written => (.error e, chain, some (file.getD .empty ++ line.extract 0 written))
      | .unsynced e => (.error e, chain, some (file.getD .empty ++ line))
      | .done => (.ok event, ⟨event.hash⟩, some (file.getD .empty ++ line)) := by
  cases write <;> simp only [AuditChain.append, assertKind, if_pos known]

omit [SerdeJson] in
theorem append_done (known : draft.kind ∈ auditKinds) (file : Option ByteArray) :
    chain.append file eventId ts draft .done =
      (.ok (draft.event eventId ts chain.headHash),
        ⟨(draft.event eventId ts chain.headHash).hash⟩,
        some (file.getD .empty ++
          (String.ofList ((draft.event eventId ts chain.headHash).line ++ ['\n'])).toUTF8)) :=
  append_known chain file eventId ts known .done

theorem step_done (running : s.chain = some chain) (known : draft.kind ∈ auditKinds) :
    s.step (.append eventId ts draft .done) =
      ⟨some (s.file.getD .empty ++
          (String.ofList ((draft.event eventId ts chain.headHash).line ++ ['\n'])).toUTF8),
        some ⟨(draft.event eventId ts chain.headHash).hash⟩,
        s.appended ++ [draft.event eventId ts chain.headHash]⟩ := by
  rw [ChainState.step, running]
  dsimp only
  rw [append_done known]

/-- A successful append adds its event to the file and makes it the head. -/
theorem Continues.appended (continues : Continues events s) (running : s.chain = some chain)
    (known : draft.kind ∈ auditKinds) (readable : plain draft.detail) :
    Continues (events ++ [draft.event eventId ts (lastHash events)])
        (s.step (.append eventId ts draft .done)) ∧
      (s.step (.append eventId ts draft .done)).chain.isSome ∧
      (s.step (.append eventId ts draft .done)).appended =
        s.appended ++ [draft.event eventId ts (lastHash events)] := by
  rw [step_done running known, continues.headed chain running]
  refine ⟨⟨continues.chained.concat readable, continues.contains.concat _, ?_⟩, rfl, rfl⟩
  intro other same
  rw [← Option.some.inj same, lastHash_concat]

def AuditEvent.toDraft (event : AuditEvent) : AuditEventDraft where
  kind := event.kind
  messageId := event.messageId
  fromCell := event.fromCell
  toCell := event.toCell
  outcome := event.outcome
  detail := event.detail

/-- An append that does not fail, of an allowed kind and a readable detail, or a reopening. -/
def ChainOp.Succeeds : ChainOp → Prop
  | .append _ _ draft .done => draft.kind ∈ auditKinds ∧ plain draft.detail
  | .append _ _ _ _ => False
  | .reopen => True

def ChainOp.draft? : ChainOp → Option AuditEventDraft
  | .append _ _ draft _ => some draft
  | .reopen => none

theorem Continues.run (reads : ReadsBack) : ∀ (ops : List ChainOp) (s : ChainState),
    Continues s.appended s → s.chain.isSome → (∀ op ∈ ops, op.Succeeds) →
    Continues (s.run ops).appended (s.run ops) ∧
      (s.run ops).appended.map AuditEvent.toDraft =
        s.appended.map AuditEvent.toDraft ++ ops.filterMap ChainOp.draft? := by
  intro ops
  induction ops with
  | nil => intro s continues _ _; exact ⟨continues, by simp [ChainState.run]⟩
  | cons op rest ih =>
    intro s continues running succeed
    obtain ⟨here, later⟩ := List.forall_mem_cons.mp succeed
    obtain ⟨chain, running⟩ := Option.isSome_iff_exists.mp running
    change Continues ((s.step op).run rest).appended _ ∧ ((s.step op).run rest).appended.map _ = _
    match op with
    | .reopen =>
      obtain ⟨reopened, chain⟩ := continues.reopened reads
      exact ih _ reopened (by rw [chain]; rfl) later
    | .append eventId ts draft .done =>
      obtain ⟨next, running, appended⟩ := continues.appended running here.1 here.2
      obtain ⟨onward, drafts⟩ := ih _ (appended ▸ next) running later
      refine ⟨onward, ?_⟩
      rw [drafts, appended, List.map_append, List.append_assoc]
      rfl

/-- Whatever was appended, and whenever the file was reopened in between,
verification returns the last hash and the number of events. -/
theorem append_then_verify (reads : ReadsBack) (ops : List ChainOp)
    (succeed : ∀ op ∈ ops, op.Succeeds) :
    AuditChain.verify (ChainState.new.run ops).file =
        .ok (lastHash (ChainState.new.run ops).appended) (ChainState.new.run ops).appended.length ∧
      (ChainState.new.run ops).appended.map AuditEvent.toDraft = ops.filterMap ChainOp.draft? := by
  obtain ⟨continues, drafts⟩ := Continues.run reads ops .new .new rfl succeed
  exact ⟨continues.contains.verifies reads continues.chained, drafts⟩

omit [Platform] [SerdeJson] in
theorem two_events_verify : ∃ (_ : Platform) (_ : SerdeJson) (ops : List ChainOp) (headHash : String),
    ops.length = 3 ∧ AuditChain.verify (ChainState.new.run ops).file = .ok headHash 2 := by
  let _ := Platform.sample
  let _ := SerdeJson.ofWriter
  let first : AuditEventDraft := ⟨"enqueued", some "m1", some "a", some "b", "ok", none⟩
  let second : AuditEventDraft :=
    ⟨"ask_opened", some "m2", none, none, "ok", some (.obj [("n", .neg 4), ("to", .str "b")])⟩
  let ops : List ChainOp := [.append "e1" "t1" first .done, .reopen, .append "e2" "t2" second .done]
  have every : ∀ p : Json → Prop, p (.obj [("n", .neg 4), ("to", .str "b")]) → p (.neg 4) →
      p (.str "b") → (Json.obj [("n", .neg 4), ("to", .str "b")]).Every p := by
    intro p whole number text
    apply Json.Every.node whole
    simp only [Json.children, List.map_cons, List.map_nil, List.forall_mem_cons, List.not_mem_nil,
      false_implies, implies_true, and_true]
    exact ⟨.node number (by simp [Json.children]), .node text (by simp [Json.children])⟩
  have sorted : Json.sortedKeys (.obj [("n", .neg 4), ("to", .str "b")]) := by
    simp only [Json.sortedKeys, List.map_cons, List.map_nil]
    decide
  have detail : plain second.detail := by
    rintro value ⟨⟩
    exact ⟨every _ sorted trivial trivial, every _ trivial trivial trivial⟩
  have succeed : ∀ op ∈ ops, op.Succeeds := by
    simp only [ops, List.forall_mem_cons, List.not_mem_nil, false_implies, implies_true, and_true]
    exact ⟨⟨by decide, by simp [plain, first]⟩, trivial, by decide, detail⟩
  obtain ⟨verified, drafts⟩ := append_then_verify readsBack_ofWriter ops succeed
  have size := congrArg List.length drafts
  rw [List.length_map] at size
  exact ⟨_, _, ops, _, rfl, verified.trans (by rw [size]; rfl)⟩

end Runs

end Crewd
