import Crewd.Chain.Tampering

/-! Appends that fail. What a failed append leaves in the file decides whether the
chain can go on: nothing, a whole line that the head does not cover yet, or a
part of a line that no later append can follow. -/
namespace Crewd
open HashChain

section Leftovers

/-- What failed appends have left: a part of a line, or a whole line that was
written after the chain was last opened. -/
structure Leftover where
  torn : Bool
  ahead : Bool
deriving DecidableEq

def Leftover.none : Leftover := ⟨false, false⟩

def Leftover.after (left : Leftover) : ChainOp → Leftover
  | .reopen => { left with ahead := false }
  | .append _ _ draft write =>
    if draft.kind ∈ auditKinds then
      match write with
      | .cut _ (_ + 1) => { left with torn := true }
      | .unsynced _ => { left with ahead := true }
      | .cut _ 0 | .unopened _ | .done => left
    else left

/-- An append writes only when nothing is left over. -/
def Leftover.Admits (left : Leftover) : ChainOp → Prop
  | .reopen => True
  | .append _ _ draft write =>
    match write with
    | .unopened _ | .cut _ 0 => True
    | .cut _ (_ + 1) | .unsynced _ | .done => draft.kind ∈ auditKinds → left = .none

def Careful : Leftover → List ChainOp → Prop
  | _, [] => True
  | left, op :: ops => left.Admits op ∧ Careful (left.after op) ops

theorem careful_concat {last : ChainOp} : ∀ {ops : List ChainOp} {left : Leftover},
    Careful left (ops ++ [last]) →
    Careful left ops ∧ (ops.foldl Leftover.after left).Admits last := by
  intro ops
  induction ops with
  | nil => intro left careful; exact ⟨trivial, careful.1⟩
  | cons op rest ih =>
    intro left careful
    obtain ⟨before, admits⟩ := ih careful.2
    exact ⟨⟨careful.1, before⟩, admits⟩

/-- The detail of an append is a value that reads back. -/
def ChainOp.Readable : ChainOp → Prop
  | .append _ _ draft _ => plain draft.detail
  | .reopen => True

end Leftovers

section Runs

variable [Platform] [SerdeJson]

/-- A state whose file holds these whole lines, the successful appends among them. -/
structure Survives (events : List AuditEvent) (left : Leftover) (s : ChainState) : Prop where
  chained : Chained events
  kept : ∀ event ∈ s.appended, event ∈ events
  contains : left.torn = false → Contains s.file events
  headed : left = .none → ∀ chain, s.chain = some chain → chain.headHash = lastHash events

omit [SerdeJson] in
theorem Survives.new : Survives [] .none .new where
  chained := .nil
  kept := by simp [ChainState.new]
  contains := fun _ => rfl
  headed := fun _ => Continues.new.headed

variable {events : List AuditEvent} {left : Leftover} {s : ChainState} {chain : AuditChain}
  {draft : AuditEventDraft} {eventId ts : String}

theorem step_absent {write : Write} (absent : s.chain = none) :
    s.step (.append eventId ts draft write) = s := by
  rw [ChainState.step, absent]

/-- An append whose kind is unknown changes nothing. -/
theorem step_unknown {write : Write} (unknown : draft.kind ∉ auditKinds) :
    s.step (.append eventId ts draft write) = s := by
  cases running : s.chain with
  | none => exact step_absent running
  | some chain =>
    rw [ChainState.step, running]
    dsimp only
    rw [AuditChain.append, assertKind, if_neg unknown]
    obtain ⟨file, _, appended⟩ := s
    obtain rfl := running
    rfl

/-- A failed append changes the file at most. -/
theorem step_failed {write : Write} {e : String} {file : Option ByteArray}
    (running : s.chain = some chain)
    (fails : chain.append s.file eventId ts draft write = (.error e, chain, file)) :
    s.step (.append eventId ts draft write) = { s with file := file } := by
  rw [ChainState.step, running]
  dsimp only
  rw [fails]

omit [Platform] [SerdeJson] in
theorem after_append (left : Leftover) (eventId ts : String) (draft : AuditEventDraft)
    (write : Write) : left.after (.append eventId ts draft write) = left ∨
      left.after (.append eventId ts draft write) = { left with torn := true } ∨
      left.after (.append eventId ts draft write) = { left with ahead := true } := by
  by_cases known : draft.kind ∈ auditKinds
  · match write with
    | .cut _ (_ + 1) => exact .inr (.inl (if_pos known))
    | .unsynced _ => exact .inr (.inr (if_pos known))
    | .cut _ 0 | .unopened _ | .done => exact .inl (if_pos known)
  · exact .inl (if_neg known)

omit [Platform] [SerdeJson] in
theorem torn_after {write : Write}
    (whole : (left.after (.append eventId ts draft write)).torn = false) : left.torn = false := by
  rcases after_append left eventId ts draft write with same | torn | ahead
  · rwa [same] at whole
  · exact absurd whole (by simp [torn])
  · rwa [ahead] at whole

omit [Platform] [SerdeJson] in
theorem none_after {write : Write} (clean : left.after (.append eventId ts draft write) = .none) :
    left = .none := by
  rcases after_append left eventId ts draft write with same | torn | ahead
  · exact same.symm.trans clean
  · exact absurd (congrArg Leftover.torn (torn.symm.trans clean)) (by simp [Leftover.none])
  · exact absurd (congrArg Leftover.ahead (ahead.symm.trans clean)) (by simp [Leftover.none])

/-- An append that leaves the state as it was. -/
theorem Survives.unchanged {write : Write} (survives : Survives events left s)
    (same : s.step (.append eventId ts draft write) = s) :
    Survives events (left.after (.append eventId ts draft write))
      (s.step (.append eventId ts draft write)) := by
  rw [same]
  exact ⟨survives.chained, survives.kept, fun whole => survives.contains (torn_after whole),
    fun clean => survives.headed (none_after clean)⟩

omit [Platform] [SerdeJson] in
theorem Contains.touched {file : Option ByteArray} (contains : Contains file events) :
    Contains (some (file.getD .empty)) events := by
  cases file with
  | none =>
    obtain rfl : events = [] := contains
    rfl
  | some bytes => exact contains

theorem Survives.reopened (reads : ReadsBack) (survives : Survives events left s) :
    Survives events (left.after .reopen) (s.step .reopen) where
  chained := survives.chained
  kept := survives.kept
  contains := survives.contains
  headed := by
    intro clean chain same
    have contains := survives.contains (congrArg Leftover.torn clean)
    rw [ChainState.step, contains.opens reads survives.chained.plain] at same
    rw [← Option.some.inj same]

omit [Platform] [SerdeJson] in
theorem kept_concat {appended : List AuditEvent} (kept : ∀ event ∈ appended, event ∈ events)
    (new : AuditEvent) : ∀ event ∈ appended ++ [new], event ∈ events ++ [new] := by
  intro event member
  rcases List.mem_append.mp member with old | last
  · exact List.mem_append_left _ (kept event old)
  · exact List.mem_append_right _ last

theorem Survives.append {write : Write} (survives : Survives events left s)
    (running : s.chain = some chain) (known : draft.kind ∈ auditKinds)
    (readable : plain draft.detail) (admits : left.Admits (.append eventId ts draft write)) :
    ∃ more, Survives (events ++ more) (left.after (.append eventId ts draft write))
      (s.step (.append eventId ts draft write)) := by
  have appends := append_known chain s.file eventId ts known write
  match write with
  | .unopened e =>
    exact ⟨[], by simpa using survives.unchanged (step_failed running appends)⟩
  | .cut e 0 =>
    refine ⟨[], ?_⟩
    rw [step_failed running appends, Leftover.after, if_pos known, List.append_nil]
    refine ⟨survives.chained, survives.kept, ?_, survives.headed⟩
    intro whole
    simpa using (survives.contains whole).touched
  | .cut e (written + 1) =>
    refine ⟨[], ?_⟩
    rw [step_failed running appends, Leftover.after, if_pos known, List.append_nil]
    exact ⟨survives.chained, survives.kept, fun whole => absurd whole (by simp),
      fun clean => absurd (congrArg Leftover.torn clean) (by simp [Leftover.none])⟩
  | .unsynced e =>
    obtain rfl := admits known
    have contains := survives.contains rfl
    rw [survives.headed rfl chain running] at appends
    refine ⟨[draft.event eventId ts (lastHash events)], ?_⟩
    rw [step_failed running appends, Leftover.after, if_pos known]
    refine ⟨survives.chained.concat readable, ?_, fun _ => contains.concat _,
      fun clean => absurd (congrArg Leftover.ahead clean) (by simp [Leftover.none])⟩
    intro event member
    exact List.mem_append_left _ (survives.kept event member)
  | .done =>
    obtain rfl := admits known
    have contains := survives.contains rfl
    refine ⟨[draft.event eventId ts (lastHash events)], ?_⟩
    rw [step_done running known, survives.headed rfl chain running, Leftover.after, if_pos known]
    refine ⟨survives.chained.concat readable, kept_concat survives.kept _,
      fun _ => contains.concat _, ?_⟩
    intro _ other same
    rw [← Option.some.inj same, lastHash_concat]

theorem Survives.step (reads : ReadsBack) (survives : Survives events left s) {op : ChainOp}
    (admits : left.Admits op) (readable : op.Readable) :
    ∃ more, Survives (events ++ more) (left.after op) (s.step op) := by
  cases op with
  | reopen => exact ⟨[], by simpa using survives.reopened reads⟩
  | append eventId ts draft write =>
    by_cases known : draft.kind ∈ auditKinds
    · cases running : s.chain with
      | none => exact ⟨[], by simpa using survives.unchanged (step_absent running)⟩
      | some chain => exact survives.append running known readable admits
    · exact ⟨[], by simpa using survives.unchanged (step_unknown known)⟩

theorem Survives.run (reads : ReadsBack) : ∀ (ops : List ChainOp) {events : List AuditEvent}
    {left : Leftover} {s : ChainState}, Survives events left s → Careful left ops →
    (∀ op ∈ ops, op.Readable) →
    ∃ written, Survives written (ops.foldl Leftover.after left) (s.run ops) := by
  intro ops
  induction ops with
  | nil => intro events left s survives _ _; exact ⟨events, survives⟩
  | cons op rest ih =>
    intro events left s survives careful readable
    obtain ⟨here, later⟩ := List.forall_mem_cons.mp readable
    obtain ⟨more, next⟩ := survives.step reads careful.1 here
    exact ih next careful.2 later

/-- Verified, with every successfully appended event among the verified ones. -/
def Accounted (s : ChainState) : Prop :=
  (∃ headHash count, AuditChain.verify s.file = .ok headHash count) ∧
    ∃ values, eventsOf s.file = some values ∧
      ∀ event ∈ s.appended, ∃ value ∈ values, value.1 = event.toValue

theorem Contains.accounted (reads : ReadsBack) (chained : Chained events)
    (contains : Contains s.file events) (kept : ∀ event ∈ s.appended, event ∈ events) :
    Accounted s := by
  refine ⟨⟨_, _, contains.verifies reads chained⟩, ?_⟩
  obtain ⟨values, held, same⟩ := lines_read reads chained.plain
  refine ⟨values, contains.events.trans held, ?_⟩
  intro event member
  obtain ⟨i, bound, rfl⟩ := List.getElem_of_mem (kept event member)
  have length := same.length_eq
  exact ⟨values[i], List.getElem_mem _, same.get (by omega) bound⟩

/-- An append that succeeds was admitted, so it leaves no part of a line. -/
theorem whole_of_appended {op : ChainOp} (admits : left.Admits op)
    (succeeds : (s.step op).appended ≠ s.appended) : (left.after op).torn = false := by
  cases op with
  | reopen => exact absurd rfl succeeds
  | append eventId ts draft write =>
    by_cases known : draft.kind ∈ auditKinds
    · cases running : s.chain with
      | none => exact absurd (congrArg ChainState.appended (step_absent running)) succeeds
      | some chain =>
        have appends := append_known chain s.file eventId ts known write
        match write with
        | .done =>
          obtain rfl := admits known
          rw [Leftover.after, if_pos known]
          rfl
        | .unopened e | .unsynced e | .cut e 0 | .cut e (_ + 1) =>
          exact absurd (congrArg ChainState.appended (step_failed running appends)) succeeds
    · exact absurd (congrArg ChainState.appended (step_unknown known)) succeeds

/-- While no append writes after a part of a line, nor after a whole line the head
does not cover, each append that succeeds leaves the file verified with all of the
successful appends in it. -/
theorem failed_append_absorbed (reads : ReadsBack) (ops : List ChainOp) (last : ChainOp)
    (careful : Careful .none (ops ++ [last])) (readable : ∀ op ∈ ops ++ [last], op.Readable)
    (succeeds : (ChainState.new.run (ops ++ [last])).appended ≠ (ChainState.new.run ops).appended) :
    Accounted (ChainState.new.run (ops ++ [last])) := by
  obtain ⟨before, admits⟩ := careful_concat careful
  obtain ⟨written, survives⟩ := Survives.run reads ops .new before
    (fun op member => readable op (by simp [member]))
  have steps : ChainState.new.run (ops ++ [last]) = (ChainState.new.run ops).step last := by
    simp [ChainState.run]
  rw [steps] at succeeds ⊢
  obtain ⟨more, next⟩ := survives.step reads admits (readable last (by simp))
  exact (next.contains (whole_of_appended admits succeeds)).accounted reads next.chained next.kept

end Runs

section Sample

/-- An event appended to a file that is not read again names the head in memory. -/
theorem contains_after [Platform] [SerdeJson] {s : ChainState} {events : List AuditEvent}
    {chain : AuditChain} {draft : AuditEventDraft} (eventId ts : String)
    (contains : Contains s.file events) (running : s.chain = some chain)
    (known : draft.kind ∈ auditKinds) : Contains (s.step (.append eventId ts draft .done)).file
      (events ++ [draft.event eventId ts chain.headHash]) := by
  rw [step_done running known]
  exact contains.concat _

/-- The append of an event whose fsync fails, and what it leaves. -/
def failingAppend : ChainOp := .append "e1" "t1" enqueuedDraft (.unsynced "disk full")

def laterAppend : ChainOp := .append "e2" "t2" enqueuedDraft .done

theorem enqueuedDraft_known : enqueuedDraft.kind ∈ auditKinds := by decide

theorem enqueuedDraft_plain : plain enqueuedDraft.detail := by simp [plain, enqueuedDraft]

theorem failingAppend_leaves [Platform] [SerdeJson] :
    Contains (ChainState.new.step failingAppend).file
        [enqueuedDraft.event "e1" "t1" genesisHash] ∧
      (ChainState.new.step failingAppend).chain = some ⟨genesisHash⟩ ∧
      (ChainState.new.step failingAppend).appended = [] := by
  have empty : Contains ChainState.new.file [] := rfl
  have fails := append_known ⟨genesisHash⟩ ChainState.new.file "e1" "t1" enqueuedDraft_known
    (.unsynced "disk full")
  rw [failingAppend, step_failed rfl fails]
  exact ⟨empty.concat _, rfl, rfl⟩

theorem laterAppend_succeeds [Platform] [SerdeJson] {s : ChainState} {chain : AuditChain}
    (running : s.chain = some chain) : (s.step laterAppend).appended ≠ s.appended := by
  rw [laterAppend, step_done running enqueuedDraft_known]
  simp

/-- A line whose fsync failed is followed by an event that names the same head. -/
theorem unsynced_line_poisons : ¬ ∀ (_ : Platform) (_ : SerdeJson), ReadsBack →
    ∀ (ops : List ChainOp) (last : ChainOp), (∀ op ∈ ops ++ [last], op.Readable) →
    (ChainState.new.run (ops ++ [last])).appended ≠ (ChainState.new.run ops).appended →
    Accounted (ChainState.new.run (ops ++ [last])) := by
  intro claim
  let _ := Platform.collisionFree
  let _ := SerdeJson.ofWriter
  let first := enqueuedDraft.event "e1" "t1" genesisHash
  let second := enqueuedDraft.event "e2" "t2" genesisHash
  obtain ⟨contains, running, none⟩ := failingAppend_leaves
  have both := contains_after "e2" "t2" contains running enqueuedDraft_known
  have readable : ∀ op ∈ [failingAppend] ++ [laterAppend], op.Readable := by
    simp [failingAppend, laterAppend, ChainOp.Readable, enqueuedDraft_plain]
  have succeeds : (ChainState.new.run ([failingAppend] ++ [laterAppend])).appended ≠
      (ChainState.new.run [failingAppend]).appended := by
    rw [ChainState.run, List.foldl_concat]
    exact laterAppend_succeeds running
  obtain ⟨⟨headHash, count, ok⟩, -⟩ := claim _ _ readsBack_ofWriter [failingAppend] laterAppend
    readable succeeds
  obtain ⟨values, held, linked, -, -, -⟩ := verify_ok_iff.mp ok
  have known : ∀ event ∈ [first, second], plain event.detail := by
    simp [first, second, AuditEventDraft.event, enqueuedDraft_plain]
  obtain ⟨values', held', same⟩ := lines_read readsBack_ofWriter known
  obtain rfl := Option.some.inj (held.symm.trans (both.events.trans held'))
  obtain ⟨v, rest, here, tail, rfl⟩ := List.forall₂_cons_right_iff.mp same
  obtain ⟨w, _, there, -, rfl⟩ := List.forall₂_cons_right_iff.mp tail
  have links : prevHashOf w = digestOf v := linked.2.1
  have names : prevHashOf w = genesisHash := by
    rw [prevHashOf, there, prevHash_toValue]
    rfl
  exact absurd (links.symm.trans names) (sha256_fresh _)

theorem reopened_chain_absorbs : ∃ (_ : Platform) (_ : SerdeJson) (ops : List ChainOp)
    (last : ChainOp), failingAppend ∈ ops ∧ Accounted (ChainState.new.run (ops ++ [last])) := by
  let _ := Platform.collisionFree
  let _ := SerdeJson.ofWriter
  let ops : List ChainOp := [failingAppend, .reopen]
  obtain ⟨contains, running, none⟩ := failingAppend_leaves
  have readable : ∀ op ∈ ops ++ [laterAppend], op.Readable := by
    simp [ops, failingAppend, laterAppend, ChainOp.Readable, enqueuedDraft_plain]
  have ahead : Leftover.none.after failingAppend = ⟨false, true⟩ := by
    rw [failingAppend, Leftover.after, if_pos enqueuedDraft_known]
    rfl
  have careful : Careful .none (ops ++ [laterAppend]) := by
    refine ⟨fun _ => rfl, trivial, ?_, trivial⟩
    rw [ahead]
    exact fun _ => rfl
  have opened := contains.opens readsBack_ofWriter
    (by simp [AuditEventDraft.event, enqueuedDraft_plain])
  have reopened : ((ChainState.new.step failingAppend).step .reopen).chain =
      some ⟨lastHash [enqueuedDraft.event "e1" "t1" genesisHash]⟩ := by
    rw [ChainState.step, opened]
    rfl
  have succeeds : (ChainState.new.run (ops ++ [laterAppend])).appended ≠
      (ChainState.new.run ops).appended := by
    rw [ChainState.run, List.foldl_concat]
    exact laterAppend_succeeds reopened
  exact ⟨_, _, ops, laterAppend, by simp [ops],
    failed_append_absorbed readsBack_ofWriter ops laterAppend careful readable succeeds⟩

end Sample

end Crewd
