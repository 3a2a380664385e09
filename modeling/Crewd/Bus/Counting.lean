import Crewd.Bus.Moving

/-! Sections as numbers of statements. Each statement takes one fault of the input, so
a computation answers when none of its statements is to fail, and the first one that is
to fail ends it; statements outside a transaction that ran before it stay. -/
namespace Crewd.Bus
open Autocommit

variable {α β : Type} {P P' : World → Prop} {E E' : World → Prop} {count l : Nat}

theorem faultless_add {w : World} (first second : Nat) : Faultless (first + second) w ↔
    Faultless first w ∧ ((w.input.faults.drop first).take second).any Option.isSome = false := by
  simp only [Faultless, List.take_add, List.any_append, Bool.or_eq_false_iff]

/-- A statement takes the next fault, if there is one. -/
theorem nextFault_exec (w : World) : ∃ w', w.Quiet w' ∧ w'.input.faults = w.input.faults.drop 1 ∧
    (Faultless 1 w ∧ nextFault.exec w = (.ok none, w') ∨
      ¬ Faultless 1 w ∧ ∃ text, nextFault.exec w = (.ok (some text), w')) := by
  refine ⟨(nextFault.exec w).2, Silent.nextFault w, ?_⟩
  simp only [nextFault, Action.exec_step, Faultless]
  cases faults : w.input.faults with
  | nil => exact ⟨by simp [faults], .inl ⟨by simp, rfl⟩⟩
  | cons fault later =>
    cases fault with
    | none => exact ⟨rfl, .inl ⟨by simp, rfl⟩⟩
    | some text => exact ⟨rfl, .inr ⟨by simp, text, rfl⟩⟩

/-- A `SELECT` answers from the tables, unless it is to fail. -/
theorem query_exec (f : Store → α) (w : World) : ∃ w', w.Quiet w' ∧
    (Faultless 1 w ∧ (query f).exec w = (.ok (f w.store), w') ∨
      ¬ Faultless 1 w ∧ ∃ text, (query f).exec w = (.error (.internal text), w')) := by
  obtain ⟨w', quiet, _, ⟨clear, ran⟩ | ⟨faulty, text, ran⟩⟩ := nextFault_exec w
  · exact ⟨w', quiet, .inl ⟨clear, by simp [query, mayFail, ran, readStore, quiet.store]⟩⟩
  · exact ⟨w', quiet, .inr ⟨faulty, text, by simp [query, mayFail, ran]⟩⟩

/-- An event of a known kind is appended, unless that is to fail. -/
theorem audit_exec {kind outcome : String} (messageId fromCell toCell : Option String)
    (detail : Option Json) (known : kind ∈ auditKinds) (w : World) :
    (Faultless 1 w ∧ ∃ w', w.Quiet w' ∧ (audit kind messageId fromCell toCell outcome detail).exec w =
      (.ok (), { w' with audit := w.audit ++ [⟨kind, messageId, fromCell, toCell, outcome, detail⟩] })) ∨
    (¬ Faultless 1 w ∧ ∃ text w', w.Quiet w' ∧
      (audit kind messageId fromCell toCell outcome detail).exec w = (.error (.internal text), w')) := by
  have kept : assertKind kind = .ok () := by simp [assertKind, known]
  obtain ⟨w', quiet, _, ⟨clear, ran⟩ | ⟨faulty, text, ran⟩⟩ := nextFault_exec w
  · refine .inl ⟨clear, w', quiet, ?_⟩
    simp [audit, append, kept, ran, ← quiet.audit]
  · exact .inr ⟨faulty, _, w', quiet, by simp [audit, append, kept, ran]; rfl⟩

/-- The computation is this number of statements: it answers when none of them is to
fail, and ends with an error when one is. -/
structure Counts (count : Nat) (P : World → Prop) (m : Act α) (Q : α → World → Prop)
    (E : World → Prop) : Prop where
  works : ∀ w, P w → Faultless count w → ∃ a w', m.exec w = (.ok a, w') ∧
    w'.input.faults = w.input.faults.drop count ∧ Q a w'
  fails : ∀ w, P w → ¬ Faultless count w → ∃ e w', m.exec w = (.error e, w') ∧ E w'

namespace Counts
variable {m : Act α} {Q Q' : α → World → Prop} {count : Nat}

theorem bind {f : α → Act β} {R : β → World → Prop} (first : Counts count P m Q E)
    (rest : ∀ a, Counts l (Q a) (f a) R E) : Counts (count + l) P (m >>= f) R E := by
  constructor
  · intro w holds clear
    obtain ⟨before, after⟩ := (faultless_add count l).mp clear
    obtain ⟨a, w', ran, left, next⟩ := first.works w holds before
    obtain ⟨b, w'', ran', left', last⟩ := (rest a).works w' next (by rw [Faultless, left]; exact after)
    refine ⟨b, w'', by rw [Action.exec_bind, ran]; exact ran', ?_, last⟩
    rw [left', left, List.drop_drop]
  · intro w holds faulty
    by_cases before : Faultless count w
    · obtain ⟨a, w', ran, left, next⟩ := first.works w holds before
      have after : ¬ Faultless l w' := by
        rw [Faultless, left]
        exact fun after => faulty ((faultless_add count l).mpr ⟨before, after⟩)
      obtain ⟨e, w'', ran', last⟩ := (rest a).fails w' next after
      exact ⟨e, w'', by rw [Action.exec_bind, ran]; exact ran', last⟩
    · obtain ⟨e, w', ran, last⟩ := first.fails w holds before
      exact ⟨e, w', by rw [Action.exec_bind, ran], last⟩

/-- What is no statement cannot fail. -/
theorem step {f : World → α × World} (faults : ∀ w, (f w).2.input.faults = w.input.faults)
    (holds : ∀ w, P w → Q (f w).1 (f w).2) : Counts 0 P (Action.step f) Q E := by
  constructor
  · exact fun w here _ => ⟨_, _, rfl, faults w, holds w here⟩
  · exact fun w _ faulty => absurd (by simp [Faultless]) faulty

theorem pure {a : α} (holds : ∀ w, P w → Q a w) : Counts 0 P (Pure.pure a : Act α) Q E :=
  ⟨fun w here _ => ⟨a, w, rfl, rfl, holds w here⟩,
    fun w _ faulty => absurd (by simp [Faultless]) faulty⟩

theorem weaken (before : ∀ w, P' w → P w) (after : ∀ a w, Q a w → Q' a w)
    (counts : Counts count P m Q E) : Counts count P' m Q' E where
  works w holds clear := by
    obtain ⟨a, w', ran, left, last⟩ := counts.works w (before w holds) clear
    exact ⟨a, w', ran, left, after a w' last⟩
  fails w holds faulty := counts.fails w (before w holds) faulty

/-- From nowhere, anything. -/
theorem vacuous (never : ∀ w, ¬ P w) : Counts count P m Q E :=
  ⟨fun w here => absurd here (never w), fun w here => absurd here (never w)⟩

theorem nowMs (unread : Unread P) : Counts 0 P (nowMs : Act Nat) (fun _ => P) E := by
  unfold Crewd.nowMs
  apply step
  · intro w
    split <;> rfl
  · exact fun w here => unread w _ (Silent.nowMs w) here

theorem nowRfc3339 (unread : Unread P) : Counts 0 P (nowRfc3339 : Act String) (fun _ => P) E :=
  ((nowMs unread).bind (l := 0) fun _ => pure fun _ here => here).bind (l := 0) fun _ =>
    pure fun _ here => here

theorem rfc3339After (unread : Unread P) (secs : Nat) :
    Counts 0 P (rfc3339After secs : Act String) (fun _ => P) E :=
  ((nowMs unread).bind (l := 0) fun _ => pure fun _ here => here).bind (l := 0) fun _ =>
    pure fun _ here => here

theorem mayFail (unread : Unread P) (spoils : ∀ w, P w → E w) :
    Counts 1 P mayFail (fun _ => P) E := by
  constructor
  · intro w here clear
    obtain ⟨w', quiet, left, ⟨_, ran⟩ | ⟨faulty, _⟩⟩ := nextFault_exec w
    · exact ⟨(), w', by simp [Crewd.mayFail, ran], left, unread w w' quiet here⟩
    · exact absurd clear faulty
  · intro w here faulty
    obtain ⟨w', quiet, _, ⟨clear, _⟩ | ⟨_, text, ran⟩⟩ := nextFault_exec w
    · exact absurd clear faulty
    · exact ⟨_, w', by simp [Crewd.mayFail, ran]; rfl, spoils w' (unread w w' quiet here)⟩

theorem query {f : Store → α} (unread : Unread P) (spoils : ∀ w, P w → E w) :
    Counts 1 P (query f) (fun a w => P w ∧ a = f w.store) E :=
  (mayFail unread spoils).bind (l := 0) fun _ => step (fun _ => rfl) fun _ holds => ⟨holds, rfl⟩

/-- A statement that updates the state when it does not fail. -/
theorem update {f : World → World} {Q : World → Prop} (unread : Unread P)
    (faults : ∀ w, (f w).input.faults = w.input.faults) (spoils : ∀ w, P w → E w)
    (holds : ∀ w, P w → Q (f w)) :
    Counts 1 P (Crewd.mayFail >>= fun _ => Action.step fun w => ((), f w)) (fun _ => Q) E :=
  (mayFail unread spoils).bind (l := 0) fun _ => step faults holds

theorem execute {f : Store → Store} {Q : World → Prop} (unread : Unread P)
    (spoils : ∀ w, P w → E w) (holds : ∀ w, P w → Q { w with store := f w.store }) :
    Counts 1 P (execute f) (fun _ => Q) E :=
  update unread (fun _ => rfl) spoils holds

/-- An event of a known kind is one statement. -/
theorem audit {kind outcome : String} {messageId fromCell toCell : Option String}
    {detail : Option Json} (known : kind ∈ auditKinds) (unread : Unread P)
    (spoils : ∀ w, P w → E w) (holds : ∀ w chain, P w → P { w with audit := chain }) :
    Counts 1 P (audit kind messageId fromCell toCell outcome detail) (fun _ => P) E := by
  constructor
  · intro w here clear
    obtain ⟨w', quiet, left, ⟨_, ran⟩ | ⟨faulty, _⟩⟩ := nextFault_exec w
    · exact ⟨(), { w' with audit := w'.audit ++ [_] },
        by simp [Crewd.audit, append, assertKind, known, ran]; rfl, left,
        holds w' _ (unread w w' quiet here)⟩
    · exact absurd clear faulty
  · intro w here faulty
    obtain ⟨w', quiet, _, ⟨clear, _⟩ | ⟨_, text, ran⟩⟩ := nextFault_exec w
    · exact absurd clear faulty
    · exact ⟨_, w', by simp [Crewd.audit, append, assertKind, known, ran]; rfl,
        spoils w' (unread w w' quiet here)⟩

theorem forM {xs : List β} {f : β → Act PUnit} (each : ∀ x ∈ xs, Counts 1 P (f x) (fun _ => P) E) :
    Counts xs.length P (xs.forM f) (fun _ => P) E := by
  induction xs with
  | nil => exact pure fun _ holds => holds
  | cons x rest ih =>
    rw [List.length_cons, Nat.add_comm]
    exact (each x List.mem_cons_self).bind fun _ =>
      ih fun y member => each y (List.mem_cons_of_mem _ member)

/-- `BEGIN`, the statements, and `COMMIT`; an error takes the tables back. -/
theorem transaction {m : Act α} (unread : Unread P) (after : ∀ a, Unread (Q a))
    (spoils : ∀ w, P w → E w)
    (back : ∀ w w' : World, P w → E { w' with store := w.store, history := w.history })
    (body : Counts count P m Q fun _ => True) : Counts (count + 2) P (transaction m) Q E := by
  have whole : Counts (count + 1) P (committing m) Q fun _ => True :=
    body.bind fun a => (mayFail (after a) fun _ _ => trivial).bind (l := 0) fun _ =>
      pure fun _ holds => holds
  have atomic : Counts (count + 1) P (atomically (committing m)) Q E := by
    constructor
    · intro w holds clear
      obtain ⟨a, w', ran, left, last⟩ := whole.works w holds clear
      exact ⟨a, w', by simp [atomically, ran], left, last⟩
    · intro w holds faulty
      obtain ⟨e, w', ran, _⟩ := whole.fails w holds faulty
      exact ⟨e, { w' with store := w.store, history := w.history }, by simp [atomically, ran],
        back w w' holds⟩
  rw [Nat.add_comm, show 2 + count = 1 + (count + 1) by omega]
  exact (mayFail unread spoils).bind fun _ => atomic

end Counts

/-- The computation is `total` statements, and the first `safe` of them leave what the
tables are compared by; one that fails after these leaves it changed. -/
structure Tears (safe total : Nat) (P : World → Prop) (m : Act α) (Q : α → World → Prop)
    (same changed : World → Prop) : Prop where
  works : ∀ w, P w → Faultless total w → ∃ a w', m.exec w = (.ok a, w') ∧ Q a w'
  early : ∀ w, P w → ¬ Faultless safe w → ∃ e w', m.exec w = (.error e, w') ∧ same w'
  late : ∀ w, P w → Faultless safe w → ¬ Faultless total w →
    ∃ e w', m.exec w = (.error e, w') ∧ changed w'

namespace Tears
variable {m : Act α} {Q Q' : α → World → Prop} {R : β → World → Prop}
  {same changed : World → Prop} {safe total s t : Nat}

/-- What only comes after the first change. -/
theorem ofCounts (counts : Counts count P m Q changed) : Tears 0 count P m Q same changed where
  works w here clear := by
    obtain ⟨a, w', ran, _, last⟩ := counts.works w here clear
    exact ⟨a, w', ran, last⟩
  early w _ faulty := absurd (by simp [Faultless]) faulty
  late w here _ faulty := counts.fails w here faulty

/-- What never changes anything before it fails. -/
theorem whole (counts : Counts count P m Q same) : Tears count count P m Q same changed where
  works w here clear := by
    obtain ⟨a, w', ran, _, last⟩ := counts.works w here clear
    exact ⟨a, w', ran, last⟩
  early w here faulty := counts.fails w here faulty
  late w _ clear faulty := absurd clear faulty

theorem bind {f : α → Act β} (first : Counts count P m Q same)
    (rest : ∀ a, Tears s t (Q a) (f a) R same changed) :
    Tears (count + s) (count + t) P (m >>= f) R same changed := by
  constructor
  · intro w here clear
    obtain ⟨before, after⟩ := (faultless_add count t).mp clear
    obtain ⟨a, w', ran, left, next⟩ := first.works w here before
    obtain ⟨b, w'', ran', last⟩ := (rest a).works w' next (by rw [Faultless, left]; exact after)
    exact ⟨b, w'', by rw [Action.exec_bind, ran]; exact ran', last⟩
  · intro w here faulty
    by_cases before : Faultless count w
    · obtain ⟨a, w', ran, left, next⟩ := first.works w here before
      have after : ¬ Faultless s w' := by
        rw [Faultless, left]
        exact fun after => faulty ((faultless_add count s).mpr ⟨before, after⟩)
      obtain ⟨e, w'', ran', last⟩ := (rest a).early w' next after
      exact ⟨e, w'', by rw [Action.exec_bind, ran]; exact ran', last⟩
    · obtain ⟨e, w', ran, last⟩ := first.fails w here before
      exact ⟨e, w', by rw [Action.exec_bind, ran], last⟩
  · intro w here clear faulty
    obtain ⟨before, after⟩ := (faultless_add count s).mp clear
    obtain ⟨a, w', ran, left, next⟩ := first.works w here before
    have later : ¬ Faultless t w' := by
      rw [Faultless, left]
      exact fun later => faulty ((faultless_add count t).mpr ⟨before, later⟩)
    obtain ⟨e, w'', ran', last⟩ := (rest a).late w' next (by rw [Faultless, left]; exact after) later
    exact ⟨e, w'', by rw [Action.exec_bind, ran]; exact ran', last⟩

/-- What does not depend on the state may be assumed. -/
theorem assume {fact : Prop} (tears : fact → Tears safe total P m Q same changed) :
    Tears safe total (fun w => P w ∧ fact) m Q same changed where
  works w here clear := (tears here.2).works w here.1 clear
  early w here faulty := (tears here.2).early w here.1 faulty
  late w here clear faulty := (tears here.2).late w here.1 clear faulty

theorem weaken (before : ∀ w, P' w → P w) (after : ∀ a w, Q a w → Q' a w)
    (tears : Tears safe total P m Q same changed) : Tears safe total P' m Q' same changed where
  works w here clear := by
    obtain ⟨a, w', ran, last⟩ := tears.works w (before w here) clear
    exact ⟨a, w', ran, after a w' last⟩
  early w here faulty := tears.early w (before w here) faulty
  late w here clear faulty := tears.late w (before w here) clear faulty

theorem vacuous (never : ∀ w, ¬ P w) : Tears safe total P m Q same changed :=
  ⟨fun w here => absurd here (never w), fun w here => absurd here (never w),
    fun w here => absurd here (never w)⟩

/-- A run that answers has made all its statements. -/
theorem answers (tears : Tears safe total P m Q same changed) (here : P w) {a : α} {w' : World}
    (ran : m.exec w = (.ok a, w')) : Q a w' := by
  by_cases clear : Faultless total w
  · obtain ⟨a', w'', ran', last⟩ := tears.works w here clear
    cases ran.symm.trans ran'
    exact last
  · by_cases before : Faultless safe w
    · obtain ⟨e, w'', ran', _⟩ := tears.late w here before clear
      cases ran.symm.trans ran'
    · obtain ⟨e, w'', ran', _⟩ := tears.early w here before
      cases ran.symm.trans ran'

/-- A failing run leaves things the same exactly when it is not torn apart. -/
theorem same_iff (tears : Tears safe total P m Q same changed)
    (apart : ∀ w, changed w → ¬ same w) (here : P w) {e : BusError} {w' : World}
    (ran : m.exec w = (.error e, w')) :
    same w' ↔ ¬ (Faultless safe w ∧ ¬ Faultless total w) := by
  constructor
  · intro kept ⟨clear, faulty⟩
    obtain ⟨e', w'', ran', moved⟩ := tears.late w here clear faulty
    cases ran.symm.trans ran'
    exact apart w' moved kept
  · intro whole
    by_cases clear : Faultless safe w
    · have all : Faultless total w := by
        by_contra faulty
        exact whole ⟨clear, faulty⟩
      obtain ⟨a, w'', ran', _⟩ := tears.works w here all
      cases ran.symm.trans ran'
    · obtain ⟨e', w'', ran', kept⟩ := tears.early w here clear
      cases ran.symm.trans ran'
      exact kept

end Tears
end Crewd.Bus
