import Crewd.Handler
import Crewd.Lib.Endings

/-! Rules for the primitive statements. A snapshot fixes what a section has done
to tables, chain, memory and history; identifiers may only have advanced. -/
namespace Crewd
open Autocommit Concurrent

structure Snapshot (S M K : Type) where
  store : S
  audit : List AuditEventDraft
  memory : M
  history : List K
  minted : Nat

structure World.At (w : World S M X K) (now : Snapshot S M K) : Prop where
  store : w.store = now.store
  audit : w.audit = now.audit
  memory : w.memory = now.memory
  history : w.history = now.history
  minted : now.minted ≤ w.minted

variable {S M X K α β : Type}

def World.snapshot (w : World S M X K) : Snapshot S M K :=
  ⟨w.store, w.audit, w.memory, w.history, w.minted⟩

theorem World.at_snapshot (w : World S M X K) : w.At w.snapshot :=
  ⟨.refl _, .refl _, .refl _, .refl _, Nat.le_refl _⟩

theorem World.At.quiet {w w' : World S M X K} {now : Snapshot S M K} (here : w.At now)
    (quiet : w.Quiet w') : w'.At now :=
  ⟨quiet.store.trans here.store, quiet.audit.trans here.audit, quiet.memory.trans here.memory,
    quiet.history.trans here.history, Nat.le_trans here.minted quiet.minted⟩

theorem World.Quiet.trans {w w' w'' : World S M X K} (first : w.Quiet w') (second : w'.Quiet w'') :
    w.Quiet w'' :=
  ⟨second.store.trans first.store, second.audit.trans first.audit,
    second.memory.trans first.memory, second.history.trans first.history,
    Nat.le_trans first.minted second.minted⟩

/-- A computation that only reads, draws identifiers and consumes input. -/
def Silent (m : Act S M X K α) : Prop :=
  ∀ w : World S M X K, w.Quiet (m.exec w).2

namespace Silent

theorem pure (a : α) : Silent (Pure.pure a : Act S M X K α) := fun _ => .rfl

theorem throw (e : BusError) : Silent (MonadExcept.throw e : Act S M X K α) := fun _ => .rfl

theorem bind {m : Act S M X K α} {f : α → Act S M X K β} (first : Silent m)
    (rest : ∀ a, Silent (f a)) : Silent (m >>= f) := by
  intro w
  have moved := first w
  rw [Action.exec_bind]
  cases run : m.exec w with
  | mk result w' =>
    rw [run] at moved
    cases result with
    | error e => exact moved
    | ok a => exact moved.trans (rest a w')

theorem outcome {m : Act S M X K α} (silent : Silent m) : Silent m.outcome := silent

theorem step {f : World S M X K → α × World S M X K}
    (still : ∀ w : World S M X K, w.Quiet (f w).2) :
    Silent (Action.step f : Act S M X K α) := still

theorem readStore (f : S → α) : Silent (readStore f : Act S M X K α) := fun _ => .rfl

theorem readMemory (f : M → α) : Silent (readMemory f : Act S M X K α) := fun _ => .rfl

theorem readOutside (f : X → α) : Silent (readOutside f : Act S M X K α) := fun _ => .rfl

theorem nextFault : Silent (nextFault : Act S M X K _) := by
  refine step fun w => ?_
  split
  · exact .rfl
  · exact ⟨.refl _, .refl _, .refl _, .refl _, Nat.le_refl _⟩

theorem mayFail : Silent (mayFail : Act S M X K Unit) := by
  refine bind nextFault fun fault => ?_
  cases fault with
  | none => exact pure ()
  | some text => exact throw _

theorem query (f : S → α) : Silent (query f : Act S M X K α) := bind mayFail fun _ => readStore f

theorem nowMs : Silent (nowMs : Act S M X K Nat) := by
  refine step fun w => ?_
  split
  · exact .rfl
  · exact .rfl
  · exact ⟨.refl _, .refl _, .refl _, .refl _, Nat.le_refl _⟩

theorem nowUnix : Silent (nowUnix : Act S M X K Nat) := bind nowMs fun _ => pure _

theorem nowRfc3339 : Silent (nowRfc3339 : Act S M X K String) := bind nowUnix fun _ => pure _

theorem rfc3339After (secs : Nat) : Silent (rfc3339After secs : Act S M X K String) :=
  bind nowUnix fun _ => pure _

theorem newUuidv7 [Platform] : Silent (newUuidv7 : Act S M X K String) :=
  step fun _ => ⟨.refl _, .refl _, .refl _, .refl _, Nat.le_succ _⟩

end Silent

/-- Every error of the computation is internal, or one of these. -/
def Errs (others : BusError → Prop) (m : Act S M X K α) : Prop :=
  ∀ w e, (m.exec w).1 = .error e → (∃ text, e = .internal text) ∨ others e

namespace Errs
variable {others : BusError → Prop} {m : Act S M X K α}

theorem pure (a : α) : Errs others (Pure.pure a : Act S M X K α) := fun _ _ failed => by cases failed

theorem throw {e : BusError} (kind : others e) : Errs others (MonadExcept.throw e : Act S M X K α) :=
  fun _ _ failed => by cases failed; exact .inr kind

theorem internal (text : String) : Errs others (MonadExcept.throw (.internal text) : Act S M X K α) :=
  fun _ _ failed => by cases failed; exact .inl ⟨text, rfl⟩

theorem step (f : World S M X K → α × World S M X K) :
    Errs others (Action.step f : Act S M X K α) := fun _ _ failed => by cases failed

theorem bind {f : α → Act S M X K β} (first : Errs others m) (rest : ∀ a, Errs others (f a)) :
    Errs others (m >>= f) := by
  intro w e failed
  rw [Action.exec_bind] at failed
  cases run : m.exec w with
  | mk result w' =>
    rw [run] at failed
    cases result with
    | error e' =>
      cases failed
      exact first w e (by rw [run])
    | ok a => exact rest a w' e failed

theorem forM {xs : List β} {f : β → Act S M X K PUnit} (each : ∀ x, Errs others (f x)) :
    Errs others (xs.forM f) := by
  induction xs with
  | nil => exact pure _
  | cons x xs ih => exact bind (each x) fun _ => ih

theorem mayFail : Errs others (mayFail : Act S M X K Unit) :=
  bind (step _) fun fault => match fault with
    | none => pure ()
    | some text => internal text

theorem query (f : S → α) : Errs others (query f : Act S M X K α) := bind mayFail fun _ => step _

theorem execute (f : S → S) : Errs others (execute f : Act S M X K Unit) :=
  bind mayFail fun _ => step _

theorem nowUnix : Errs others (nowUnix : Act S M X K Nat) := bind (step _) fun _ => pure _

theorem nowRfc3339 : Errs others (nowRfc3339 : Act S M X K String) := bind nowUnix fun _ => pure _

theorem rfc3339After (secs : Nat) : Errs others (rfc3339After secs : Act S M X K String) :=
  bind nowUnix fun _ => pure _

theorem audit {kind outcome : String} {messageId fromCell toCell : Option String}
    {detail : Option Json} :
    Errs others (audit kind messageId fromCell toCell outcome detail : Act S M X K Unit) := by
  have appended : ∀ draft, Errs others (append draft : Act S M X K _) := by
    intro draft
    unfold append
    split
    · exact pure _
    · refine bind (step _) fun fault => ?_
      cases fault with
      | some text => exact pure _
      | none => exact step _
  refine bind (appended _) fun logged => ?_
  cases logged with
  | ok u => exact pure _
  | error e => exact internal _

theorem atomically (errs : Errs others m) : Errs others (atomically m) := by
  intro w e failed
  simp only [Crewd.atomically, Action.exec_mk] at failed
  cases run : m.exec w with
  | mk result w' =>
    rw [run] at failed
    cases result with
    | error e' =>
      cases failed
      exact errs w e (by rw [run])
    | ok a => cases failed

theorem transaction (errs : Errs others m) : Errs others (transaction m) :=
  bind mayFail fun _ => atomically (bind errs fun _ => bind mayFail fun _ => pure _)

end Errs

/-- Go on from a snapshot that what was just done has fixed. -/
theorem meets_from {R : World S M X K → World S M X K → Prop} {P : World S M X K → Prop}
    {m : Act S M X K α} {Q : α → World S M X K → Prop}
    (each : ∀ w, P w → ∃ now, w.At now ∧ Meets R (·.At now) m Q) : Meets R P m Q :=
  Meets.given fun w holds =>
    let ⟨_, here, met⟩ := each w holds
    ⟨_, here, met⟩

/-- After a check that needs no state. -/
theorem meets_checked {R : World S M X K → World S M X K → Prop} {P : World S M X K → Prop}
    {r : Except BusError Unit} {m : Unit → Act S M X K α} {Q : α → World S M X K → Prop}
    (rest : r = .ok () → Meets R P (m ()) Q) : Meets R P (Action.ofExcept r >>= m) Q := by
  cases r with
  | ok u => exact rest rfl
  | error e => exact fun _ _ => ⟨.refl, fun _ same => by cases same⟩

section Rules
variable {R : World S M X K → World S M X K → Prop} {now : Snapshot S M K}

/-- What is done atomically is kept as a whole, or only what no rollback undoes is.
`T` describes the body from the inside. -/
theorem meets_atomically {T : World S M X K → World S M X K → Prop} {body : Act S M X K α}
    {Q Q' : α → World S M X K → Prop} (inner : Meets T (·.At now) body Q)
    (commit : ∀ w w' a, w.At now → Relation.ReflTransGen T w w' → Q a w' →
      Relation.ReflTransGen R w w' ∧ Q' a w')
    (rollback : ∀ w w', w.At now → Relation.ReflTransGen T w w' →
      Relation.ReflTransGen R w { w' with store := w.store, history := w.history }) :
    Meets R (·.At now) (atomically body) Q' := by
  intro w here
  obtain ⟨path, answers⟩ := inner w here
  simp only [atomically, Action.exec_mk]
  cases run : body.exec w with
  | mk result w' =>
    rw [run] at path answers
    cases result with
    | ok a =>
      have done := commit w w' a here path (answers a rfl)
      exact ⟨done.1, fun _ same => by cases same; exact done.2⟩
    | error e => exact ⟨rollback w w' here path, fun _ same => by cases same⟩

theorem Silent.meets {m : Act S M X K α} (silent : Silent m)
    (quiet : ∀ w w', World.Quiet w w' → R w w') :
    Meets R (·.At now) m (fun _ w => w.At now) :=
  fun w here => ⟨.single (quiet _ _ (silent w)), fun _ _ => here.quiet (silent w)⟩

theorem Silent.always {m : Act S M X K α} (silent : Silent m)
    (quiet : ∀ w w', World.Quiet w w' → R w w') :
    Meets R (fun _ => True) m (fun _ _ => True) :=
  fun w _ => ⟨.single (quiet _ _ (silent w)), fun _ _ => trivial⟩

variable (quiet : ∀ w w', World.Quiet w w' → R w w')
include quiet

theorem meets_mayFail : Meets R (·.At now) mayFail (fun _ w => w.At now) :=
  Silent.mayFail.meets quiet

/-- A statement of the store that answers from the tables of the snapshot. -/
theorem meets_query (f : S → α) :
    Meets R (·.At now) (query f) (fun a w => w.At now ∧ a = f now.store) := by
  refine (meets_mayFail quiet).bind fun _ => Meets.look (fun _ => rfl) fun _ here => ?_
  exact ⟨here, by rw [here.store]⟩

/-- The same where a failing statement is not an error of the section. -/
theorem meets_query_outcome (f : S → α) :
    Meets R (·.At now) (query f).outcome
      (fun r w => w.At now ∧ ∀ a, r = .ok a → a = f now.store) := by
  intro w here
  obtain ⟨path, answers⟩ := meets_query quiet f w here
  refine ⟨path, fun _ same => ?_⟩
  cases same
  exact ⟨here.quiet (Silent.query f w), fun a ok => (answers a ok).2⟩

omit quiet in
/-- Where nothing fails it answers from the tables. -/
theorem query_outcome_clear (f : S → α) {w : World S M X K} (clear : w.failsNext = false) :
    ((query f).outcome.exec w).1 = .ok (.ok (f w.store)) := by
  cases faults : w.input.faults with
  | nil => simp [query, mayFail, nextFault, faults, readStore]
  | cons fault later =>
    have none : fault = none := by simpa [World.failsNext, faults] using clear
    simp [query, mayFail, nextFault, faults, none, readStore]

theorem meets_execute {f : S → S}
    (moves : ∀ w, w.At now → R w { w with store := f w.store }) :
    Meets R (·.At now) (execute f) (fun _ w => w.At { now with store := f now.store }) := by
  refine (meets_mayFail quiet).bind fun _ => Meets.step moves fun _ here => ?_
  exact ⟨by rw [← here.store], here.audit, here.memory, here.history, here.minted⟩

/-- An `INSERT` that succeeds found its key free. -/
theorem meets_insertInto {taken : S → Bool} {constraint : String} {f : S → S}
    (moves : ∀ w, w.At now → taken now.store = false → R w { w with store := f w.store }) :
    Meets R (·.At now) (insertInto taken constraint f) (fun _ w =>
      taken now.store = false ∧ w.At { now with store := f now.store }) := by
  refine (meets_mayFail quiet).bind fun _ => Meets.bind (Q := fun b w =>
    w.At now ∧ b = taken now.store) ?_ fun b => ?_
  · exact Meets.look (fun _ => rfl) fun _ here => ⟨here, by rw [here.store]⟩
  · cases b with
    | true => exact Meets.throw
    | false =>
      refine Meets.step (fun w ⟨here, free⟩ => moves w here free.symm) fun _ ⟨here, free⟩ => ?_
      exact ⟨free.symm, by rw [← here.store], here.audit, here.memory, here.history, here.minted⟩

theorem meets_newUuidv7 [Platform] : Meets R (·.At now) newUuidv7 (fun id w =>
    ∃ n, now.minted ≤ n ∧ id = Platform.uuid n ∧ w.At { now with minted := n + 1 }) :=
  Meets.step (fun _ _ => quiet _ _ ⟨.refl _, .refl _, .refl _, .refl _, Nat.le_succ _⟩)
    fun w here => ⟨w.minted, here.minted, rfl, here.store, here.audit, here.memory, here.history,
      Nat.le_refl _⟩

omit quiet in
theorem meets_readMemory (f : M → α) :
    Meets R (·.At now) (readMemory f) (fun a w => w.At now ∧ a = f now.memory) :=
  Meets.look (fun _ => rfl) fun _ here => ⟨here, by rw [here.memory]⟩

theorem meets_append {draft : AuditEventDraft}
    (moves : ∀ w, w.At now → R w { w with audit := w.audit ++ [draft] }) :
    Meets R (·.At now) (append draft) (fun r w =>
      (r = .ok () → w.At { now with audit := now.audit ++ [draft] }) ∧
      (r ≠ .ok () → w.At now)) := by
  unfold append
  split
  · exact Meets.pure fun w here => ⟨by simp, fun _ => here⟩
  · refine (Silent.nextFault.meets quiet).bind fun fault => ?_
    cases fault with
    | some text => exact Meets.pure fun w here => ⟨by simp, fun _ => here⟩
    | none =>
      refine Meets.step moves fun _ here => ⟨fun _ => ?_, by simp⟩
      exact ⟨here.store, by rw [← here.audit], here.memory, here.history, here.minted⟩

theorem meets_audit {kind outcome : String} {messageId fromCell toCell : Option String}
    {detail : Option Json}
    (moves : ∀ w, w.At now → R w { w with
      audit := w.audit ++ [⟨kind, messageId, fromCell, toCell, outcome, detail⟩] }) :
    Meets R (·.At now) (audit kind messageId fromCell toCell outcome detail) (fun _ w =>
      w.At { now with
        audit := now.audit ++ [⟨kind, messageId, fromCell, toCell, outcome, detail⟩] }) := by
  refine (meets_append quiet moves).bind fun r => ?_
  cases r with
  | ok u => exact Meets.pure fun w here => here.1 rfl
  | error e => exact Meets.throw

end Rules

/-- An event leaves the tables, whether it is appended or not. -/
theorem audit_store (kind : String) (messageId fromCell toCell : Option String) (outcome : String)
    (detail : Option Json) (w : World S M X K) :
    ((audit kind messageId fromCell toCell outcome detail : Act S M X K Unit).exec w).2.store = w.store := by
  have appended : ∀ draft, ((append draft : Act S M X K _).exec w).2.store = w.store := by
    intro draft
    unfold append
    split
    · rfl
    · rw [Action.exec_bind]
      have quiet := (Silent.nextFault w).store
      cases ran : (nextFault : Act S M X K _).exec w with
      | mk r w' =>
        rw [ran] at quiet
        cases r with
        | error e => exact quiet
        | ok fault => cases fault <;> exact quiet
  have same := appended ⟨kind, messageId, fromCell, toCell, outcome, detail⟩
  rw [audit, Action.exec_bind]
  cases ran : (append ⟨kind, messageId, fromCell, toCell, outcome, detail⟩ : Act S M X K _).exec w with
  | mk r w' =>
    rw [ran] at same
    cases r with
    | error e => exact same
    | ok written => cases written <;> exact same

/-- What a `SELECT` answers. -/
theorem query_reads {f : S → α} {w : World S M X K} (ran : ((query f).exec w).1 = .ok a) :
    a = f w.store :=
  ((meets_query (R := fun _ _ => True) (fun _ _ _ => trivial) f w w.at_snapshot).2 a ran).2

section Clear
variable {w : World S M X K}

/-- A statement that is not to fail. -/
theorem mayFail_clear (clear : w.input.faults = []) :
    (mayFail : Act S M X K Unit).exec w = (.ok (), w) := by
  simp [mayFail, nextFault, clear]

theorem query_clear (f : S → α) (clear : w.input.faults = []) :
    (query f : Act S M X K α).exec w = (.ok (f w.store), w) := by
  simp [query, mayFail_clear clear, readStore]

/-- Reading the clock leaves tables and faults alone. -/
theorem rfc3339After_clear (secs : Nat) (w : World S M X K) : ∃ time w',
    (rfc3339After secs : Act S M X K String).exec w = (.ok time, w') ∧ w'.store = w.store ∧
      w'.input.faults = w.input.faults := by
  simp only [rfc3339After, nowUnix, nowMs, Action.exec_bind, Action.exec_step, Action.exec_pure]
  split <;> exact ⟨_, _, rfl, rfl, rfl⟩

end Clear

section Unfailing
variable {st : S}

/-- No statement of the section fails. -/
def Unfailing (w : World S M X K) : Prop := ∀ fault ∈ w.input.faults, fault = none

/-- The section has these tables, and none of its statements fails. -/
def Intact (st : S) (w : World S M X K) : Prop := w.store = st ∧ Unfailing w

theorem mayFail_succeeds :
    Succeeds (Intact st) (mayFail : Act S M X K Unit) (fun _ => Intact st) := by
  rintro w ⟨same, works⟩
  simp only [mayFail, nextFault, Action.exec_bind, Action.exec_step]
  cases faults : w.input.faults with
  | nil => exact ⟨(), w, rfl, same, works⟩
  | cons fault later =>
    rw [Unfailing, faults] at works
    have first := works fault List.mem_cons_self
    subst first
    exact ⟨(), _, rfl, same, fun later member => works later (List.mem_cons_of_mem _ member)⟩

theorem query_succeeds (f : S → α) :
    Succeeds (Intact st) (query f : Act S M X K α) (fun a w => Intact st w ∧ a = f st) := by
  apply mayFail_succeeds.bind
  intro _
  apply Succeeds.step
  rintro w ⟨same, works⟩
  exact ⟨⟨same, works⟩, by rw [same]⟩

end Unfailing

section Sections
variable {inv : World S M X K → Prop} {rely R : World S M X K → World S M X K → Prop}

/-- The part of a postcondition that speaks of success. -/
def onOk (Q : α → World S M X K → Prop) : Except BusError α → World S M X K → Prop
  | .ok a, w => Q a w
  | .error _, _ => True

abbrev Runs (inv : World S M X K → Prop) (rely R : World S M X K → World S M X K → Prop)
    (P : World S M X K → Prop) (h : Handler S M X K α) (Q : α → World S M X K → Prop) : Prop :=
  Safe inv rely (Relation.ReflTransGen R) (onOk Q) h.run P

namespace Runs
variable {P : World S M X K → Prop} {Q : α → World S M X K → Prop}
  {Q' : β → World S M X K → Prop}

theorem bind {h : Handler S M X K α} {f : α → Handler S M X K β}
    (first : Runs inv rely R P h Q) (rest : ∀ a, Runs inv rely R (Q a) (f a) Q') :
    Runs inv rely R P (h >>= f) Q' := by
  refine Safe.bind first fun r => ?_
  cases r with
  | ok a => exact rest a
  | error e => exact fun _ _ _ => trivial

theorem pure {a : α} (holds : ∀ w, inv w → P w → Q a w) :
    Runs inv rely R P (Pure.pure a : Handler S M X K α) Q := holds

theorem throw {e : BusError} : Runs inv rely R P (MonadExcept.throw e : Handler S M X K α) Q :=
  fun _ _ _ => trivial

theorem raise {r : Except BusError α} (holds : ∀ a w, r = .ok a → inv w → P w → Q a w) :
    Runs inv rely R P (raise r) Q := by
  cases r with
  | ok a => exact fun w hi hp => holds a w rfl hi hp
  | error e => exact fun _ _ _ => trivial

/-- After a check that succeeded. -/
theorem raised {r : Except BusError α} {f : α → Handler S M X K β}
    (rest : ∀ a, r = .ok a → Runs inv rely R P (f a) Q') :
    Runs inv rely R P (Crewd.raise r >>= f) Q' := by
  cases r with
  | ok a => exact rest a rfl
  | error e => exact fun _ _ _ => trivial

/-- What does not depend on the state may be assumed from then on. -/
theorem assume {h : Handler S M X K α} {fact : Prop} (runs : fact → Runs inv rely R P h Q) :
    Runs inv rely R (fun w => fact ∧ P w) h Q := Safe.assume runs

theorem weaken {h : Handler S M X K α} {P' : World S M X K → Prop}
    (before : ∀ w, inv w → P' w → P w) (runs : Runs inv rely R P h Q) : Runs inv rely R P' h Q :=
  Safe.weaken before runs

theorem post {h : Handler S M X K α} {Q'' : α → World S M X K → Prop}
    (after : ∀ a w, inv w → Q a w → Q'' a w) (runs : Runs inv rely R P h Q) :
    Runs inv rely R P h Q'' := by
  refine Safe.post (fun r w good holds => ?_) runs
  cases r with
  | ok a => exact after a w good holds
  | error e => trivial

/-- A locked section is one statement after another, started from any snapshot
that satisfies the invariant and the assertion. -/
theorem locked {m : Act S M X K α} (quiet : ∀ w w', World.Quiet w w' → R w w')
    (stable : ∀ a, Stable rely (Q a))
    (met : ∀ w, inv w → P w → Meets R (·.At w.snapshot) m (fun a w' => Q a w')) :
    Runs inv rely R P (locked m) Q := by
  refine Safe.critical (fun r => ?_) (fun i w hi hp => ?_) fun i w hi hp => ?_
  · cases r with
    | ok a => exact stable a
    | error e => exact fun _ _ _ h => h
  · have here := (World.at_snapshot w).quiet (w.quiet_install i)
    exact .head (quiet _ _ (w.quiet_install i)) (met w hi hp _ here).1
  · have here := (World.at_snapshot w).quiet (w.quiet_install i)
    have answers := (met w hi hp _ here).2
    show onOk Q (m.exec (w.install i)).1 _
    cases run : (m.exec (w.install i)).1 with
    | ok a => exact answers a run
    | error e => trivial

theorem forM {xs : List β} {f : β → Handler S M X K PUnit}
    (each : ∀ x ∈ xs, Runs inv rely R P (f x) (fun _ => P)) :
    Runs inv rely R P (ForM.forM xs f) (fun _ => P) := by
  induction xs with
  | nil => exact pure fun _ _ h => h
  | cons x xs ih =>
    rw [List.forM_cons]
    exact (each x (by simp)).bind fun _ => ih fun y hy => each y (by simp [hy])

end Runs
end Sections

section Endings
variable {deciding : Thread S M X K (Except BusError β) → Prop}

/-- The call ended with an error. -/
def Fails (r : Except BusError β) : Prop := ∀ a, r ≠ .ok a

/-- After a part that fails or gives a result of a kind. -/
theorem decides_bind_of {h : Handler S M X K α} {f : α → Handler S M X K β} {kind : α → Prop}
    (first : h.run.Decides (fun _ => False) fun r => ∀ a, r = .ok a → kind a)
    (rest : ∀ a, kind a → (f a).run.Decides deciding Fails) :
    (h >>= f).run.Decides deciding Fails := by
  refine Process.Decides.bind_of (p := h.run) first fun r known => ?_
  cases r with
  | ok a => exact rest a (known a rfl)
  | error e => exact fun a same => by cases same

theorem decides_bind {h : Handler S M X K α} {f : α → Handler S M X K β}
    (rest : ∀ a, (f a).run.Decides deciding Fails) : (h >>= f).run.Decides deciding Fails := by
  refine Process.Decides.bind (p := h.run) fun r => ?_
  cases r with
  | ok a => exact rest a
  | error e => exact fun a same => by cases same

/-- After a check that needs no lock. -/
theorem decides_raise {r : Except BusError α} {f : α → Handler S M X K β}
    (rest : ∀ a, r = .ok a → (f a).run.Decides deciding Fails) :
    (raise r >>= f).run.Decides deciding Fails := by
  cases r with
  | ok a => exact rest a rfl
  | error e => exact fun a same => by cases same

theorem parsed_of_ok {params : Params α} {p : α} (ok : parseParams params = .ok p) :
    params.parsed = .ok p := by
  rw [parseParams] at ok
  cases parsed : params.parsed with
  | ok a =>
    rw [parsed] at ok
    cases ok
    rfl
  | error e =>
    rw [parsed] at ok
    cases ok

theorem decides_parse {params : Params α} {f : α → Handler S M X K β}
    (rest : ∀ p, params.parsed = .ok p → (f p).run.Decides deciding Fails) :
    (raise (parseParams params) >>= f).run.Decides deciding Fails :=
  decides_raise fun p ok => rest p (parsed_of_ok ok)

end Endings

section Apart
variable {special : Thread S M X K (Except BusError β) → Prop}
  {R : World S M X K → World S M X K → Prop}

/-- The special sections come after a part without any. -/
theorem apart_bind {h : Handler S M X K α} {f : α → Handler S M X K β}
    (first : h.run.Apart (fun _ => False) R) (rest : ∀ a, (f a).run.Apart special R) :
    (h >>= f).run.Apart special R := by
  refine Process.Apart.bind (p := h.run) first fun r => ?_
  cases r with
  | ok a => exact rest a
  | error e => trivial

theorem apart_raise {r : Except BusError α} {f : α → Handler S M X K β}
    (rest : ∀ a, r = .ok a → (f a).run.Apart special R) : (raise r >>= f).run.Apart special R := by
  cases r with
  | ok a => exact rest a rfl
  | error e => trivial

theorem apart_locked {m : Act S M X K α} (effects : ∀ i w, R w (m.exec (w.install i)).2) :
    (locked m).run.Apart (fun _ => False) R := ⟨.inr effects, fun _ _ => trivial⟩

end Apart
end Crewd
