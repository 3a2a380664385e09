import Crewd.Chain.Faults

/-! The events that an operator is shown for one message. They are read from the file while the
daemon goes on with its chain, past lines that are no JSON. -/
namespace Crewd
open HashChain

section Reading
variable [SerdeJson]

/-- `read_audit_events_for`; a file that is not there or no text fails. -/
def readAuditEventsFor (file : Option ByteArray) (id : String) : Except BusError (List Json) :=
  match file with
  | none => .error (.internal "audit read: No such file or directory (os error 2)")
  | some bytes =>
    match readToString bytes with
    | none => .error (.internal "audit read: stream did not contain valid UTF-8")
    | some text => .ok ((eventLines text).filterMap fun line =>
        (SerdeJson.fromStr line).bind fun value =>
          if (value.1.get "message_id").bind Json.asStr = some id then some value.1 else none)

omit [SerdeJson] in
theorem messageId_toValue (event : AuditEvent) :
    (event.toValue.get "message_id").bind Json.asStr = event.messageId := by
  cases named : event.messageId <;>
    simp [AuditEvent.toValue, Json.get, List.lookup_cons, textOrNull, named, Json.asStr]

/-- The lines of events are read back, and those of the message are shown. -/
theorem shown_lines (reads : ReadsBack) (id : String) : ∀ {events : List AuditEvent},
    (∀ event ∈ events, plain event.detail) →
    (events.map AuditEvent.line).filterMap (fun line => (SerdeJson.fromStr line).bind fun value =>
        if (value.1.get "message_id").bind Json.asStr = some id then some value.1 else none) =
      (events.filter (·.messageId = some id)).map AuditEvent.toValue := by
  intro events
  induction events with
  | nil => intro _; rfl
  | cons event rest ih =>
    intro known
    obtain ⟨here, later⟩ := List.forall_mem_cons.mp known
    obtain ⟨value, read, holds⟩ := Option.map_eq_some_iff.mp (reads event here)
    rw [List.map_cons, List.filterMap_cons, read, Option.bind_some, holds, messageId_toValue,
      ih later]
    by_cases named : event.messageId = some id
    · simp [named]
    · simp [named]

theorem Contains.shown {file : Option ByteArray} {events : List AuditEvent} (reads : ReadsBack)
    (known : ∀ event ∈ events, plain event.detail) (contains : Contains file events)
    (id : String) (there : file ≠ none) : readAuditEventsFor file id =
      .ok ((events.filter (·.messageId = some id)).map AuditEvent.toValue) := by
  cases file with
  | none => exact absurd rfl there
  | some bytes =>
    obtain rfl : bytes = (String.ofList (logText events)).toUTF8 := contains
    rw [readAuditEventsFor, readToString_utf8]
    dsimp only
    rw [eventLines_events, shown_lines reads id known]

end Reading

section Trails
variable [Platform] [SerdeJson] {tried : List AuditEventDraft} {events : List AuditEvent}
  {left : Leftover} {s : ChainState}

/-- The whole lines of the file are those of appends that were tried, in their order, and the
successful ones are among them. -/
structure Trails (tried : List AuditEventDraft) (events : List AuditEvent) (left : Leftover)
    (s : ChainState) : Prop where
  survives : Survives events left s
  kept : s.appended.Sublist events
  drafts : (events.map AuditEvent.toDraft).Sublist tried

omit [SerdeJson] in
theorem Trails.new : Trails [] [] .none .new := ⟨.new, .slnil, .slnil⟩

omit [SerdeJson] in
/-- The lines stay as they are. -/
theorem Trails.still {after : Leftover} {t : ChainState} (trails : Trails tried events left s)
    (survives : Survives events after t) (appended : t.appended = s.appended)
    (more : List AuditEventDraft) : ∃ lines, Trails (tried ++ more) (events ++ lines) after t := by
  refine ⟨[], ?_⟩
  rw [List.append_nil]
  exact ⟨survives, appended ▸ trails.kept, List.sublist_append_of_sublist_left trails.drafts⟩

omit [SerdeJson] in
/-- One line more, which counts as appended or does not. -/
theorem Trails.grows {after : Leftover} {t : ChainState} (event : AuditEvent)
    (trails : Trails tried events left s) (survives : Survives (events ++ [event]) after t)
    (appended : t.appended = s.appended ∨ t.appended = s.appended ++ [event]) :
    ∃ lines, Trails (tried ++ [event.toDraft]) (events ++ lines) after t := by
  refine ⟨[event], survives, ?_, ?_⟩
  · rcases appended with same | more
    · rw [same]
      exact List.sublist_append_of_sublist_left trails.kept
    · rw [more]
      exact trails.kept.append (List.Sublist.refl _)
  · rw [List.map_append]
    exact trails.drafts.append (List.Sublist.refl _)

theorem Trails.append {chain : AuditChain} {draft : AuditEventDraft} {eventId ts : String}
    {write : Write} (trails : Trails tried events left s) (running : s.chain = some chain)
    (known : draft.kind ∈ auditKinds) (readable : plain draft.detail)
    (admits : left.Admits (.append eventId ts draft write)) :
    ∃ lines, Trails (tried ++ [draft]) (events ++ lines) (left.after (.append eventId ts draft write))
      (s.step (.append eventId ts draft write)) := by
  have appends := append_known chain s.file eventId ts known write
  have survives := trails.survives
  match write with
  | .unopened e =>
    have same := step_failed running appends
    exact trails.still (survives.unchanged same) (by rw [same]) _
  | .cut e 0 =>
    refine trails.still ?_ (by rw [step_failed running appends]) _
    rw [step_failed running appends, Leftover.after, if_pos known]
    refine ⟨survives.chained, survives.kept, fun whole => ?_, survives.headed⟩
    simpa using (survives.contains whole).touched
  | .cut e (written + 1) =>
    refine trails.still ?_ (by rw [step_failed running appends]) _
    rw [step_failed running appends, Leftover.after, if_pos known]
    constructor
    · exact survives.chained
    · exact survives.kept
    · exact fun whole => absurd whole (by simp)
    · exact fun clean => absurd (congrArg Leftover.torn clean) (by simp [Leftover.none])
  | .unsynced e =>
    obtain rfl := admits known
    rw [survives.headed rfl chain running] at appends
    apply trails.grows (draft.event eventId ts (lastHash events))
    · rw [step_failed running appends, Leftover.after, if_pos known]
      constructor
      · exact survives.chained.concat readable
      · exact fun event member => List.mem_append_left _ (survives.kept event member)
      · exact fun _ => (survives.contains rfl).concat _
      · exact fun clean => absurd (congrArg Leftover.ahead clean) (by simp [Leftover.none])
    · rw [step_failed running appends]
      exact .inl rfl
  | .done =>
    obtain rfl := admits known
    apply trails.grows (draft.event eventId ts (lastHash events))
    · rw [step_done running known, survives.headed rfl chain running, Leftover.after, if_pos known]
      constructor
      · exact survives.chained.concat readable
      · exact kept_concat survives.kept _
      · exact fun _ => (survives.contains rfl).concat _
      · intro _ other same
        rw [← Option.some.inj same, lastHash_concat]
    · rw [step_done running known, survives.headed rfl chain running]
      exact .inr rfl

theorem Trails.step (reads : ReadsBack) (trails : Trails tried events left s) {op : ChainOp}
    (admits : left.Admits op) (readable : op.Readable) : ∃ lines,
    Trails (tried ++ op.draft?.toList) (events ++ lines) (left.after op) (s.step op) := by
  cases op with
  | reopen => exact trails.still (trails.survives.reopened reads) rfl _
  | append eventId ts draft write =>
    by_cases known : draft.kind ∈ auditKinds
    · cases running : s.chain with
      | none =>
        have same : s.step (.append eventId ts draft write) = s := step_absent running
        exact trails.still (trails.survives.unchanged same) (by rw [same]) _
      | some chain => exact trails.append running known readable admits
    · have same : s.step (.append eventId ts draft write) = s := step_unknown known
      exact trails.still (trails.survives.unchanged same) (by rw [same]) _

theorem Trails.run (reads : ReadsBack) (ops : List ChainOp)
    (trails : Trails tried events left s) (careful : Careful left ops)
    (readable : ∀ op ∈ ops, op.Readable) : ∃ lines, Trails (tried ++ ops.filterMap ChainOp.draft?)
      lines (ops.foldl Leftover.after left) (s.run ops) := by
  induction ops generalizing tried events left s with
  | nil => exact ⟨events, by simpa [ChainState.run] using trails⟩
  | cons op rest ih =>
    obtain ⟨here, later⟩ := List.forall_mem_cons.mp readable
    obtain ⟨more, next⟩ := trails.step reads careful.1 here
    obtain ⟨lines, ended⟩ := ih next careful.2 later
    have ran : s.run (op :: rest) = (s.step op).run rest := rfl
    rw [List.append_assoc] at ended
    rw [ran, List.filterMap_cons]
    cases drafted : op.draft? with
    | none =>
      rw [drafted] at ended
      exact ⟨lines, ended⟩
    | some draft =>
      rw [drafted] at ended
      exact ⟨lines, ended⟩

/-- Whatever fails, as long as no append writes behind an unfinished line or one that the head
does not cover, the events shown for a message are those of appends that were tried for it, in
their order, and all that succeeded are among them. -/
theorem inspection_complete (reads : ReadsBack) (ops : List ChainOp) (careful : Careful .none ops)
    (readable : ∀ op ∈ ops, op.Readable) (whole : (ops.foldl Leftover.after .none).torn = false)
    (there : (ChainState.new.run ops).file ≠ none) (id : String) :
    ∃ shown : List AuditEvent,
      readAuditEventsFor (ChainState.new.run ops).file id = .ok (shown.map AuditEvent.toValue) ∧
      ((ChainState.new.run ops).appended.filter (·.messageId = some id)).Sublist shown ∧
      (shown.map AuditEvent.toDraft).Sublist
        ((ops.filterMap ChainOp.draft?).filter (·.messageId = some id)) := by
  obtain ⟨lines, trails⟩ := Trails.new.run reads ops careful readable
  have contains := trails.survives.contains whole
  refine ⟨lines.filter (·.messageId = some id),
    contains.shown reads trails.survives.chained.plain id there, trails.kept.filter _, ?_⟩
  have drafts : (lines.filter (·.messageId = some id)).map AuditEvent.toDraft =
      (lines.map AuditEvent.toDraft).filter (·.messageId = some id) := by
    rw [List.filter_map]
    rfl
  rw [drafts]
  exact trails.drafts.filter _

omit [Platform] [SerdeJson] in
theorem kept_event_shown : ∃ (_ : Platform) (_ : SerdeJson) (ops : List ChainOp)
    (shown : List AuditEvent), failingAppend ∈ ops ∧ shown ≠ [] ∧
    readAuditEventsFor (ChainState.new.run ops).file "m1" = .ok (shown.map AuditEvent.toValue) := by
  let _ := Platform.collisionFree
  let _ := SerdeJson.ofWriter
  let ops : List ChainOp := [laterAppend, failingAppend]
  have readable : ∀ op ∈ ops, op.Readable := by
    simp [ops, failingAppend, laterAppend, ChainOp.Readable, enqueuedDraft_plain]
  have left : Leftover.none.after laterAppend = .none := by
    rw [laterAppend, Leftover.after, if_pos enqueuedDraft_known]
  have torn : (ops.foldl Leftover.after .none).torn = false := by
    change ((Leftover.none.after laterAppend).after failingAppend).torn = false
    rw [left, failingAppend, Leftover.after, if_pos enqueuedDraft_known]
    rfl
  have careful : Careful .none ops := by
    refine ⟨fun _ => rfl, ?_, trivial⟩
    rw [left]
    exact fun _ => rfl
  let event := enqueuedDraft.event "e2" "t2" genesisHash
  obtain ⟨file, first⟩ : ∃ file, ChainState.new.step laterAppend =
      ⟨some file, some ⟨event.hash⟩, [event]⟩ := ⟨_, step_done rfl enqueuedDraft_known⟩
  have fails := append_known ⟨event.hash⟩ (some file) "e1" "t1" enqueuedDraft_known
    (.unsynced "disk full")
  obtain ⟨bytes, second⟩ : ∃ bytes, ChainState.new.run ops =
      ⟨some bytes, some ⟨event.hash⟩, [event]⟩ := by
    change ∃ bytes, (ChainState.new.step laterAppend).step failingAppend = _
    rw [first]
    exact ⟨_, step_failed rfl fails⟩
  obtain ⟨shown, reads, kept, _⟩ :=
    inspection_complete readsBack_ofWriter ops careful readable torn (by simp [second]) "m1"
  refine ⟨_, _, ops, shown, by simp [ops], ?_, reads⟩
  rintro rfl
  rw [second] at kept
  exact absurd kept (by simp [event, AuditEventDraft.event, enqueuedDraft])

end Trails
end Crewd
