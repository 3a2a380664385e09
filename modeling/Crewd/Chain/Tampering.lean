import Crewd.Chain.Appending
import Crewd.Lib.Table
import Mathlib.Data.List.Sort

/-! What the hashes bind. With a collision-free SHA-256 the head of a verified
file determines its events, and events that keep their hashes verify only as an
initial part of the file they come from. -/
namespace Crewd
open HashChain

section Fields

/-- A map is what one key holds and what all others hold. -/
theorem fields_subset {first second : List (String × Json)} {key : String}
    (sorted : (first.map Prod.fst).Pairwise (· < ·))
    (others : first.filter (fun field => field.1 ≠ key) =
      second.filter fun field => field.1 ≠ key)
    (held : first.lookup key = second.lookup key) : first ⊆ second := by
  rintro ⟨name, value⟩ member
  by_cases same : name = key
  · subst same
    obtain ⟨before, after, rfl, -⟩ :=
      List.lookup_eq_some_iff.mp (held.symm.trans (Table.lookup_of_mem (sorted.imp ne_of_lt) member))
    simp
  · have kept : (name, value) ∈ first.filter fun field => field.1 ≠ key :=
      List.mem_filter.mpr ⟨member, by simpa using same⟩
    rw [others] at kept
    exact (List.mem_filter.mp kept).1

theorem fields_of_remove {first second : List (String × Json)} {key : String}
    (sorted : (first.map Prod.fst).Pairwise (· < ·))
    (sorted' : (second.map Prod.fst).Pairwise (· < ·))
    (others : first.filter (fun field => field.1 ≠ key) =
      second.filter fun field => field.1 ≠ key)
    (held : first.lookup key = second.lookup key) : first = second := by
  have perm : first.Perm second := by
    have nodup := (List.pairwise_map.mp sorted).imp fun less => ne_of_apply_ne Prod.fst less.ne
    have nodup' := (List.pairwise_map.mp sorted').imp fun less => ne_of_apply_ne Prod.fst less.ne
    apply (List.perm_ext_iff_of_nodup nodup nodup').mpr
    intro field
    exact ⟨fun member => fields_subset sorted others held member,
      fun member => fields_subset sorted' others.symm held.symm member⟩
  apply perm.eq_of_pairwise _ (List.pairwise_map.mp sorted) (List.pairwise_map.mp sorted')
  intro a b _ _ less more
  exact absurd less more.asymm

theorem remove_ordered {value : Json} (ordered : value.Ordered) (key : String) :
    (value.remove key).Ordered := by
  match value with
  | .obj fields =>
    have kept : (fields.filter fun field => field.1 ≠ key).Sublist fields := List.filter_sublist
    constructor
    · exact List.Pairwise.sublist (kept.map Prod.fst) ordered.here
    · intro child member
      exact ordered.inside child ((kept.map Prod.snd).subset member)
  | .null | .bool _ | .num _ | .neg _ | .float _ | .str _ | .arr _ => exact ordered

theorem object_of_text {value : Json} {key : String} (some : value.text key ≠ "") :
    ∃ fields, value = .obj fields ∧ fields.lookup key = Option.some (.str (value.text key)) := by
  cases value with
  | obj fields =>
    refine ⟨fields, rfl, ?_⟩
    cases held : fields.lookup key with
    | none => simp [Json.text, Json.get, held] at some
    | some inner =>
      cases inner with
      | str text => simp [Json.text, Json.get, held, Json.asStr]
      | _ => simp [Json.text, Json.get, held, Json.asStr] at some
  | _ => exact absurd rfl some

end Fields

section Digests

theorem sha256_nonempty (text : String) : Platform.collisionFree.sha256 text ≠ "" := by
  intro none
  have size := congrArg String.length (show "sha256:" ++ text = "" from none)
  simp at size

theorem sha256_fresh (text : String) : Platform.collisionFree.sha256 text ≠ genesisHash := by
  intro same
  have chars := congrArg String.toList (show "sha256:" ++ text = genesisHash from same)
  rw [String.toList_append] at chars
  exact absurd (List.cons.inj chars).1 (by decide)

variable [Platform]

/-- Two values whose stored hashes are the recomputed ones and are the same. -/
theorem value_of_hash (injective : Function.Injective Platform.sha256)
    (nonempty : ∀ text, Platform.sha256 text ≠ "") {v w : Value} (here : Sealed v) (there : Sealed w)
    (same : digestOf v = digestOf w) : v = w := by
  obtain ⟨first, isFirst, held⟩ := object_of_text (here.symm.trans_ne (nonempty _))
  obtain ⟨second, isSecond, held'⟩ := object_of_text (there.symm.trans_ne (nonempty _))
  obtain ⟨v, ordered⟩ := v
  obtain ⟨w, ordered'⟩ := w
  obtain rfl : v = .obj first := isFirst
  obtain rfl : w = .obj second := isSecond
  have texts := congrArg String.toList (injective same)
  rw [String.toList_append, String.toList_append, String.toList_ofList, String.toList_ofList,
    Json.canonical_eq_render (remove_ordered ordered _),
    Json.canonical_eq_render (remove_ordered ordered' _)] at texts
  have others := (object_split texts).1
  have hashes : first.lookup "hash" = second.lookup "hash" := by
    rw [held, held']
    exact congrArg (fun text => some (Json.str text)) (here.symm.trans (same.trans there))
  have fields := fields_of_remove ordered.here ordered'.here others hashes
  subst fields
  rfl

variable [SerdeJson]

/-- The head of a verified file and the number of its events determine the events. -/
theorem head_binds_history (injective : Function.Injective Platform.sha256)
    (nonempty : ∀ text, Platform.sha256 text ≠ "") {first second : Option ByteArray}
    {headHash : String} {count : Nat} (ok : AuditChain.verify first = .ok headHash count)
    (ok' : AuditChain.verify second = .ok headHash count) :
    ∃ values, eventsOf first = some values ∧ eventsOf second = some values := by
  obtain ⟨values, held, linked, intact, isHead, size⟩ := verify_ok_iff.mp ok
  obtain ⟨values', held', linked', intact', isHead', size'⟩ := verify_ok_iff.mp ok'
  have same : values = values' := by
    apply entries_of_head _ linked linked' (size.symm.trans size') (isHead.symm.trans isHead')
    intro v member w member'
    exact value_of_hash injective nonempty (intact v member) (intact' w member')
  exact ⟨values, held, same ▸ held'⟩

omit [Platform] [SerdeJson] in
theorem blank_line_same_history : ∃ (_ : Platform) (_ : SerdeJson) (first second : Option ByteArray)
    (headHash : String), first ≠ second ∧ AuditChain.verify first = .ok headHash 1 ∧
      AuditChain.verify second = .ok headHash 1 ∧
      ∃ values, eventsOf first = some values ∧ eventsOf second = some values := by
  let _ := Platform.collisionFree
  let _ := SerdeJson.ofWriter
  let event := (AuditEventDraft.mk "enqueued" none none none "ok" none).event "e1" "t1" genesisHash
  have chained : Chained [event] := Chained.nil.concat (by simp [plain])
  let first := some (String.ofList (logText [event])).toUTF8
  let second := some (String.ofList (logText [event] ++ ['\n'])).toUTF8
  have apart : first ≠ second := by
    intro same
    have texts := congrArg (Option.bind · readToString) same
    simp only [first, second, Option.bind_some, readToString_utf8, Option.some.injEq] at texts
    exact absurd (congrArg List.length texts) (by simp)
  have ok : AuditChain.verify first = .ok event.hash 1 :=
    Contains.verifies readsBack_ofWriter chained rfl
  have ok' : AuditChain.verify second = .ok event.hash 1 := by
    rw [← ok]
    simp only [first, second, AuditChain.verify, readToString_utf8, eventLines_logText,
      eventLines_events]
    rfl
  exact ⟨_, _, first, second, event.hash, apart, ok, ok',
    head_binds_history sha256_injective sha256_nonempty ok ok'⟩

end Digests

section Tampering

variable [Platform] [SerdeJson]

/-- The lines of a file that can be read. -/
def linesOf : Option ByteArray → List (List Char)
  | none => []
  | some bytes => ((readToString bytes).map eventLines).getD []

/-- Every line is one of the events, or one of them with other fields than its hash
altered; a line may be missing, repeated or moved. -/
def TamperedFrom (events : List AuditEvent) (file : Option ByteArray) : Prop :=
  ∀ line ∈ linesOf file, (∃ event ∈ events, line = event.line) ∨
    ∃ event ∈ events, ∀ value, SerdeJson.fromStr line = some value → hashOf value = event.hash

omit [Platform] in
theorem linesOf_read {file : Option ByteArray} {values : List Value}
    (held : eventsOf file = some values) :
    (linesOf file).mapM SerdeJson.fromStr = some values := by
  cases file with
  | none => exact held
  | some bytes =>
    obtain ⟨text, read, lines⟩ := Option.bind_eq_some_iff.mp held
    rw [linesOf, read]
    exact lines

omit [Platform] in
theorem line_of_value : ∀ {lines : List (List Char)} {values : List Value},
    lines.mapM SerdeJson.fromStr = some values → ∀ value ∈ values,
    ∃ line ∈ lines, SerdeJson.fromStr line = some value := by
  intro lines
  induction lines with
  | nil =>
    intro values held value member
    obtain rfl := Option.some.inj held
    exact absurd member List.not_mem_nil
  | cons line rest ih =>
    intro values held value member
    cases read : SerdeJson.fromStr line with
    | none => simp [List.mapM_cons, read] at held
    | some first =>
      obtain ⟨later, held', rfl⟩ := (mapM_cons_iff read rest values).mp held
      rcases List.mem_cons.mp member with rfl | inside
      · exact ⟨line, List.mem_cons_self, read⟩
      · obtain ⟨other, within, same⟩ := ih held' value inside
        exact ⟨other, List.mem_cons_of_mem _ within, same⟩

/-- A verified value of an altered file is one of the original events. -/
theorem original_of_sealed (reads : ReadsBack) (injective : Function.Injective Platform.sha256)
    (nonempty : ∀ text, Platform.sha256 text ≠ "") {events : List AuditEvent}
    (chained : Chained events) {values : List Value}
    (same : List.Forall₂ (fun value event => value.1 = event.toValue) values events)
    {file : Option ByteArray} (tampered : TamperedFrom events file) {line : List Char}
    (inside : line ∈ linesOf file) {value : Value} (read : SerdeJson.fromStr line = some value)
    (intact : Sealed value) : value ∈ values := by
  have kept : ∃ event ∈ events, hashOf value = event.hash := by
    rcases tampered line inside with ⟨event, member, rfl⟩ | ⟨event, member, hash⟩
    · obtain ⟨value', read', holds⟩ :=
        Option.map_eq_some_iff.mp (reads event (chained.plain event member))
      obtain rfl := Option.some.inj (read.symm.trans read')
      exact ⟨event, member, by rw [hashOf, holds, hash_toValue]⟩
    · exact ⟨event, member, hash value read⟩
  obtain ⟨event, member, hash⟩ := kept
  obtain ⟨-, sound, -⟩ := values_linked same chained.hashed chained.linked
  obtain ⟨original, within, holds⟩ : ∃ original ∈ values, original.1 = event.toValue := by
    obtain ⟨i, bound, rfl⟩ := List.getElem_of_mem member
    have length := same.length_eq
    exact ⟨values[i], List.getElem_mem _, same.get (by omega) bound⟩
  have stored : hashOf original = event.hash := by rw [hashOf, holds, hash_toValue]
  have digests : digestOf value = digestOf original :=
    intact.trans (hash.trans (stored.symm.trans (sound original within).symm))
  rw [value_of_hash injective nonempty intact (sound original within) digests]
  exact within

/-- An altered file is broken unless its events are the original ones up to some
point: a chain cut off after a whole line still verifies. -/
theorem tampering_breaks_iff (reads : ReadsBack) (injective : Function.Injective Platform.sha256)
    (nonempty : ∀ text, Platform.sha256 text ≠ "")
    (fresh : ∀ text, Platform.sha256 text ≠ genesisHash) (ops : List ChainOp)
    (succeed : ∀ op ∈ ops, op.Succeeds) (file : Option ByteArray)
    (tampered : TamperedFrom (ChainState.new.run ops).appended file) :
    (∃ eventId index, AuditChain.verify file = .broken eventId index) ↔
      ¬ ∃ kept values, eventsOf file = some kept ∧
        eventsOf (ChainState.new.run ops).file = some values ∧ kept <+: values := by
  obtain ⟨continues, -⟩ := Continues.run reads ops .new .new rfl succeed
  have chained := continues.chained
  obtain ⟨values, held, same⟩ := lines_read reads chained.plain
  obtain ⟨linked, sound, -⟩ := values_linked same chained.hashed chained.linked
  have original := continues.contains.events.trans held
  constructor
  · rintro ⟨eventId, index, broken⟩ ⟨kept, values', keeps, held', cut⟩
    obtain rfl := Option.some.inj (original.symm.trans held')
    have ok := verify_ok_iff.mpr ⟨kept, keeps, linked_of_prefix linked cut,
      fun value member => sound value (cut.subset member), rfl, rfl⟩
    exact absurd (broken.symm.trans ok) (by simp)
  · intro uncut
    cases result : AuditChain.verify file with
    | broken eventId index => exact ⟨eventId, index, rfl⟩
    | ok headHash count =>
      obtain ⟨kept, keeps, linked', intact, -, -⟩ := verify_ok_iff.mp result
      have members : ∀ value ∈ kept, value ∈ values := by
        intro value member
        obtain ⟨line, inside, read⟩ := line_of_value (linesOf_read keeps) value member
        exact original_of_sealed reads injective nonempty chained same tampered inside read
          (intact value member)
      have cut := prefix_of_members
        (fun v member w member' => value_of_hash injective nonempty (sound v member) (sound w member'))
        (fun value => fresh _) linked linked' members
      exact absurd ⟨kept, values, keeps, original, cut⟩ uncut

end Tampering

section Sample

def enqueuedDraft : AuditEventDraft := ⟨"enqueued", some "m1", some "a", some "b", "ok", none⟩

def twoAppends : List ChainOp :=
  [.append "e1" "t1" enqueuedDraft .done, .append "e2" "t2" enqueuedDraft .done]

theorem twoAppends_succeed : ∀ op ∈ twoAppends, op.Succeeds := by
  have one : enqueuedDraft.kind ∈ auditKinds ∧ plain enqueuedDraft.detail :=
    ⟨by decide, by simp [plain, enqueuedDraft]⟩
  simp only [twoAppends, List.forall_mem_cons, List.not_mem_nil, false_implies, implies_true,
    and_true]
  exact ⟨one, one⟩

theorem twoAppends_events [Platform] [SerdeJson] : (ChainState.new.run twoAppends).appended =
    [enqueuedDraft.event "e1" "t1" genesisHash,
      enqueuedDraft.event "e2" "t2" (enqueuedDraft.event "e1" "t1" genesisHash).hash] := by
  have known : enqueuedDraft.kind ∈ auditKinds := by decide
  rw [ChainState.run, twoAppends, List.foldl_cons, List.foldl_cons, List.foldl_nil]
  rw [step_done rfl known, step_done rfl known]
  rfl

variable [SerdeJson]

theorem tamperedFrom_lines {events kept : List AuditEvent} (from' : ∀ event ∈ kept, event ∈ events) :
    TamperedFrom events (some (String.ofList (logText kept)).toUTF8) := by
  intro line inside
  rw [linesOf, readToString_utf8, Option.map_some, eventLines_events] at inside
  obtain ⟨event, member, rfl⟩ := List.mem_map.mp inside
  exact .inl ⟨event, from' event member, rfl⟩

/-- What a file of such lines holds. -/
theorem eventsOf_lines (reads : ReadsBack) {kept : List AuditEvent}
    (known : ∀ event ∈ kept, plain event.detail) :
    ∃ values, eventsOf (some (String.ofList (logText kept)).toUTF8) = some values ∧
      values.length = kept.length := by
  obtain ⟨values, held, same⟩ := lines_read reads known
  have contains : Contains (some (String.ofList (logText kept)).toUTF8) kept := rfl
  exact ⟨values, contains.events.trans held, same.length_eq⟩

end Sample

section Verdicts

/-- Cutting the last of two events off is not noticed. -/
theorem cut_chain_verifies : ¬ ∀ (_ : Platform) (_ : SerdeJson), ReadsBack →
    Function.Injective Platform.sha256 → (∀ text, Platform.sha256 text ≠ "") →
    (∀ text, Platform.sha256 text ≠ genesisHash) → ∀ ops : List ChainOp,
    (∀ op ∈ ops, op.Succeeds) → ∀ file, TamperedFrom (ChainState.new.run ops).appended file →
    eventsOf file ≠ eventsOf (ChainState.new.run ops).file →
    ∃ eventId index, AuditChain.verify file = .broken eventId index := by
  intro claim
  let _ := Platform.collisionFree
  let _ := SerdeJson.ofWriter
  have events := twoAppends_events
  obtain ⟨continues, -⟩ := Continues.run readsBack_ofWriter twoAppends .new .new rfl twoAppends_succeed
  let first := enqueuedDraft.event "e1" "t1" genesisHash
  have chained : Chained [first] := Chained.nil.concat (by simp [plain, enqueuedDraft])
  have tampered : TamperedFrom (ChainState.new.run twoAppends).appended
      (some (String.ofList (logText [first])).toUTF8) := by
    apply tamperedFrom_lines
    simp [events, first]
  obtain ⟨kept, held, one⟩ := eventsOf_lines readsBack_ofWriter chained.plain
  obtain ⟨values, original, same⟩ := lines_read readsBack_ofWriter continues.chained.plain
  have differs : eventsOf (some (String.ofList (logText [first])).toUTF8) ≠
      eventsOf (ChainState.new.run twoAppends).file := by
    rw [held, continues.contains.events, original]
    intro equal
    have sizes := congrArg List.length (Option.some.inj equal)
    rw [one, same.length_eq, events] at sizes
    exact absurd sizes (by simp)
  obtain ⟨eventId, index, broken⟩ := claim _ _ readsBack_ofWriter sha256_injective sha256_nonempty
    sha256_fresh twoAppends twoAppends_succeed _ tampered differs
  have contains : Contains (some (String.ofList (logText [first])).toUTF8) [first] := rfl
  have ok := contains.verifies readsBack_ofWriter chained
  exact absurd (broken.symm.trans ok) (by simp)

theorem repeated_event_breaks : ∃ (_ : Platform) (_ : SerdeJson) (file : Option ByteArray),
    TamperedFrom (ChainState.new.run twoAppends).appended file ∧
      ∃ eventId index, AuditChain.verify file = .broken eventId index := by
  let _ := Platform.collisionFree
  let _ := SerdeJson.ofWriter
  have events := twoAppends_events
  obtain ⟨continues, -⟩ := Continues.run readsBack_ofWriter twoAppends .new .new rfl twoAppends_succeed
  let first := enqueuedDraft.event "e1" "t1" genesisHash
  have known : ∀ event ∈ [first, first, first], plain event.detail := by
    simp [first, plain, enqueuedDraft, AuditEventDraft.event]
  have tampered : TamperedFrom (ChainState.new.run twoAppends).appended
      (some (String.ofList (logText [first, first, first])).toUTF8) := by
    apply tamperedFrom_lines
    simp [events, first]
  refine ⟨_, _, _, tampered, ?_⟩
  apply (tampering_breaks_iff readsBack_ofWriter sha256_injective sha256_nonempty sha256_fresh
    twoAppends twoAppends_succeed _ tampered).mpr
  rintro ⟨kept, values, held, original, cut⟩
  obtain ⟨kept', held', three⟩ := eventsOf_lines readsBack_ofWriter known
  obtain ⟨values', original', same⟩ := lines_read readsBack_ofWriter continues.chained.plain
  obtain rfl := Option.some.inj (held.symm.trans held')
  obtain rfl := Option.some.inj (original.symm.trans (continues.contains.events.trans original'))
  have sizes := cut.length_le
  rw [three, same.length_eq, events] at sizes
  exact absurd sizes (by simp)

end Verdicts

end Crewd
