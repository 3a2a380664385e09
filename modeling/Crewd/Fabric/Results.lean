import Crewd.Fabric.Soundness
import Crewd.Dates

/-! What `cell_result` reports. The journal of a thread holds a line for each event that
was applied to it, and the final answer is read back from its last fifty lines. The answer
is the one that the latest turn ended with as long as no other line reads like an answer
and no turn begins while an earlier answer is among those lines. -/
namespace Crewd.Fabric
open Autocommit Concurrent History

structure CellResultParams where
  crewdThreadId : String
deriving DecidableEq, Repr

structure CellResult where
  finalAnswer : Option String
  eventTail : List String
  artifactRefs : List String
  exitStatus : String
  crewdThreadId : String
  engineProcessId : Option Int
  engineThreadId : Option String
  engineTurnId : Option String
  engineSessionId : Option String
deriving DecidableEq, Repr

section Handler

def ThreadState.exitStatus : ThreadState → String
  | idle | done => "done"
  | interrupted => "interrupted"
  | timeout => "timeout"
  | failedUnknown => "failed_unknown"
  | spawning | running => "running"

def JournalRow.render (row : JournalRow) : String := padded 4 row.seq ++ " " ++ row.line

/-- The last lines of the journal, in ascending order. -/
def Store.journalTail (st : Store) (threadId : String) (n : Nat) : List String :=
  let rows := (st.journal.filter (·.threadId = threadId)).insertionSort fun a b => b.seq ≤ a.seq
  (rows.take n).reverse.map JournalRow.render

/-- What comes after the first space, if there is one. -/
def afterSpace (line : String) : Option String :=
  match line.toList.dropWhile (· ≠ ' ') with
  | [] => none
  | _ :: body => some (String.ofList body)

def stripFinal (body : String) : Option String :=
  if "final: ".toList <+: body.toList then some (String.ofList (body.toList.drop 7)) else none

def journalFinalAnswer (tail : List String) : Option String :=
  tail.reverse.findSome? fun line => (afterSpace line).bind stripFinal

def cellResult (caller threadId : String) : Act CellResult := do
  let thread ← threadOrUnknown threadId
  checkThreadOwner caller thread
  let tail ← query (·.journalTail threadId 50)
  pure ⟨journalFinalAnswer tail, tail, [], thread.state.exitStatus, thread.crewdThreadId,
    thread.engineProcessId, thread.engineThreadId, thread.engineTurnId, thread.engineSessionId⟩

def handleResult (caller : String) (params : Params CellResultParams) : Handler CellResult := do
  raise (rejectClientIdentityKeys params.keys [])
  let p ← raise (parseParams params)
  locked (cellResult caller p.crewdThreadId)

end Handler

section Lines

theorem afterSpace_render (row : JournalRow) : afterSpace row.render = some row.line := by
  have skipped : row.render.toList.dropWhile (· ≠ ' ') = ' ' :: row.line.toList := by
    have split : row.render.toList = (padded 4 row.seq).toList ++ ' ' :: row.line.toList := by
      simp [JournalRow.render]
    rw [split, List.dropWhile_append_of_pos]
    · rfl
    · intro c inside
      have digit := padded_digits 4 row.seq c inside
      apply decide_eq_true
      rintro rfl
      exact absurd digit (by decide)
  rw [afterSpace, skipped]
  exact congrArg some String.ofList_toList

theorem stripFinal_final (finalAnswer : String) :
    stripFinal (EngineEvent.final finalAnswer).line = some finalAnswer := by
  have split : (EngineEvent.final finalAnswer).line.toList =
      "final: ".toList ++ finalAnswer.toList := by
    show ("final: " ++ finalAnswer).toList = _
    exact String.toList_append
  rw [stripFinal, split, if_pos (List.prefix_append _ _)]
  exact congrArg some String.ofList_toList

variable {threadId : String} {st : Store} {w w' : World}

def Store.journalOf (st : Store) (threadId : String) : List JournalRow :=
  st.journal.filter (·.threadId = threadId)

/-- Rows are numbered in the order in which they were written. -/
def Ascending (rows : List JournalRow) : Prop := rows.Pairwise fun a b => a.seq < b.seq

theorem Ascending.sorted {rows : List JournalRow} (ascending : Ascending rows) :
    rows.insertionSort (fun a b => b.seq ≤ a.seq) = rows.reverse := by
  have total : Std.Total fun a b : JournalRow => b.seq ≤ a.seq :=
    ⟨fun a b => Nat.le_total b.seq a.seq⟩
  have trans : IsTrans JournalRow fun a b => b.seq ≤ a.seq :=
    ⟨fun _ _ _ first second => Nat.le_trans second first⟩
  have once : (rows.map (·.seq)).Nodup := List.pairwise_map.mpr (ascending.imp Nat.ne_of_lt)
  have back : rows.reverse.Pairwise fun a b => b.seq ≤ a.seq :=
    List.pairwise_reverse.mpr (ascending.imp Nat.le_of_lt)
  have perm := (List.perm_insertionSort (fun a b : JournalRow => b.seq ≤ a.seq) rows).trans
    (List.reverse_perm rows).symm
  refine perm.eq_of_pairwise (fun a b inside inside' le le' => ?_)
    (List.pairwise_insertionSort _ _) back
  apply List.inj_on_of_nodup_map once _ _ (Nat.le_antisymm le' le)
  · exact (List.mem_insertionSort _).mp inside
  · exact List.mem_reverse.mp inside'

/-- The answer is read from the latest of the last lines that has one. -/
theorem journalFinalAnswer_tail (ascending : Ascending (st.journalOf threadId)) (n : Nat) :
    journalFinalAnswer (st.journalTail threadId n) =
      (((st.journalOf threadId).map (·.line)).reverse.take n).findSome? stripFinal := by
  have read : ((fun line => (afterSpace line).bind stripFinal) ∘ JournalRow.render) =
      stripFinal ∘ (·.line) := by
    funext row
    simp only [Function.comp_apply, afterSpace_render, Option.bind_some]
  have tail : (st.journalTail threadId n).reverse =
      ((st.journalOf threadId).reverse.take n).map JournalRow.render := by
    rw [← ascending.sorted, Store.journalTail, ← List.map_reverse, List.reverse_reverse]
    rfl
  rw [journalFinalAnswer, tail, List.findSome?_map, read, ← List.findSome?_map, List.map_take,
    List.map_reverse]

end Lines

section Journal
variable {w w' : World}

/-- The events that were journaled for the thread, the latest first. -/
def journaled (threadId : String) (history : List Mark) : List EngineEvent :=
  history.filterMap fun
    | .journaled id event => if id = threadId then some event else none
    | _ => none

def Mark.ofJournal : Mark → Bool
  | .journaled _ _ => true
  | _ => false

/-- What a step makes of the journal and of the history. -/
inductive JournalStep (w : World) : List JournalRow → List Mark → Prop where
  | aside (marks : List Mark) : (∀ mark ∈ marks, mark.ofJournal = false) →
      JournalStep w w.store.journal (marks ++ w.history)
  | written (row : JournalRow) (event : EngineEvent) : row.line = event.line →
      row.seq = w.store.nextJournalSeq row.threadId →
      JournalStep w (w.store.journal ++ [row]) (.journaled row.threadId event :: w.history)

theorem JournalStep.still (journal : w'.store.journal = w.store.journal)
    (history : w'.history = w.history) : JournalStep w w'.store.journal w'.history := by
  rw [journal, history]
  exact .aside [] fun _ inside => by cases inside

theorem JournalStep.marked {mark : Mark} (aside : mark.ofJournal = false) :
    JournalStep w w.store.journal (mark :: w.history) :=
  .aside [mark] fun _ inside => by rw [List.mem_singleton.mp inside]; exact aside

theorem Calm.journalStep (step : Calm w w') : JournalStep w w'.store.journal w'.history := by
  cases step with
  | quiet same => exact .still (by rw [same.store]) same.history
  | journal row event reads numbered => exact .written row event reads numbered
  | moved _ _ _ _ _ _ _ | recorded _ _ _ | emitted _ _ _ _ | cancelled _ _ _ | stopped _
  | died _ => exact .marked rfl
  | _ => exact .still rfl rfl

theorem Statement.journalStep {self : Actor} (step : Statement self w w') :
    JournalStep w w'.store.journal w'.history := by
  cases step with
  | calm step => exact step.journalStep
  | leased _ _ _ _ _ _ | begun _ _ _ _ | running _ _ _ _ _ _ _ _ _ _ | finished _ _ _ _
  | requeued _ _ _ | launched _ _ _ _ _ _ _ _ _ | restarted _ _ | made _ _ _ _ _ _
  | attached _ _ _ _ _ _ _ | applied _ _ _ _ _ => exact .marked rfl
  | polled threadId turn _ _ =>
    simp only [poll, Action.exec_step]
    split
    · exact .still rfl rfl
    · refine .aside _ fun mark inside => ?_
      obtain ⟨event, _, rfl⟩ := List.mem_map.mp (List.mem_reverse.mp inside)
      rfl
  | overdue threadId _ =>
    simp only [takeTurn, Action.exec_step]
    split
    · exact .still rfl rfl
    · exact .marked rfl
  | _ => exact .still rfl rfl

/-- The journal of a thread holds the lines of its events in order. -/
structure Journaled (journal : List JournalRow) (history : List Mark) (threadId : String) :
    Prop where
  lines : (journal.filter (·.threadId = threadId)).map (·.line) =
    ((journaled threadId history).map (·.line)).reverse
  ascending : Ascending (journal.filter (·.threadId = threadId))

theorem JournalStep.journaled {journal : List JournalRow} {history : List Mark}
    (step : JournalStep w journal history)
    (kept : ∀ threadId, Journaled w.store.journal w.history threadId) (threadId : String) :
    Journaled journal history threadId := by
  cases step with
  | aside marks free =>
    have none : Fabric.journaled threadId marks = [] := by
      apply List.filterMap_eq_nil_iff.mpr
      intro mark inside
      have aside := free mark inside
      cases mark <;> first | rfl | cases aside
    have same : Fabric.journaled threadId (marks ++ w.history) =
        Fabric.journaled threadId w.history := by
      rw [Fabric.journaled, List.filterMap_append]
      exact congrArg (· ++ _) none
    exact ⟨by rw [same]; exact (kept threadId).lines, (kept threadId).ascending⟩
  | written row event reads numbered =>
    by_cases own : row.threadId = threadId
    · have added : Fabric.journaled threadId (.journaled row.threadId event :: w.history) =
          event :: Fabric.journaled threadId w.history := by
        simp [Fabric.journaled, own]
      have rows : (w.store.journal ++ [row]).filter (·.threadId = threadId) =
          w.store.journal.filter (·.threadId = threadId) ++ [row] := by
        simp [own]
      constructor
      · rw [added, rows, List.map_append, (kept threadId).lines, List.map_cons (l := []),
          List.map_cons (a := event), List.reverse_cons, reads]
        rfl
      · rw [rows]
        apply List.pairwise_append.mpr
        refine ⟨(kept threadId).ascending, List.pairwise_singleton _ _, fun old inside last single => ?_⟩
        rw [List.mem_singleton.mp single, numbered, own, Store.nextJournalSeq]
        apply Nat.lt_succ_of_le
        exact le_foldl_max.2 _ (List.mem_map_of_mem inside)
    · have same : Fabric.journaled threadId (.journaled row.threadId event :: w.history) =
          Fabric.journaled threadId w.history := by
        simp [Fabric.journaled, own]
      have rows : (w.store.journal ++ [row]).filter (·.threadId = threadId) =
          w.store.journal.filter (·.threadId = threadId) := by
        simp [own]
      exact ⟨by rw [rows, same]; exact (kept threadId).lines, by
        rw [rows]; exact (kept threadId).ascending⟩

end Journal

section Ending
variable {threadId : String} {history : List Mark}

/-- What the thread's latest turn ended with, if it was answered. A turn begins when
the thread is set running. -/
def latestAnswer (threadId : String) : List Mark → Option String
  | [] => none
  | .journaled id (.final finalAnswer) :: earlier =>
    if id = threadId then some finalAnswer else latestAnswer threadId earlier
  | .moved id _ .running _ :: earlier =>
    if id = threadId then none else latestAnswer threadId earlier
  | _ :: earlier => latestAnswer threadId earlier

/-- What a reader of the line takes for an answer. -/
def EngineEvent.reads (event : EngineEvent) : Option String := stripFinal event.line

/-- A line that does not answer reads like an answer only if it repeats the one of the
latest turn, and leaves that one among the last fifty lines. A turn begins only when no
line of an answer is among them. -/
def Legible (earlier : List Mark) : Mark → Prop
  | .journaled _ (.final _) => True
  | .journaled id event =>
    (event.reads ≠ none → event.reads = latestAnswer id earlier) ∧
      (latestAnswer id earlier ≠ none → event.reads = none →
        ∃ line ∈ (journaled id earlier).take 49, line.reads ≠ none)
  | .moved id _ .running _ => ∀ line ∈ (journaled id earlier).take 50, line.reads = none
  | _ => True

instance : ∀ mark, Decidable (Legible earlier mark)
  | .journaled _ (.accepted _) | .journaled _ (.note _) | .journaled _ (.failed _) |
    .moved _ _ .running _ => by dsimp only [Legible]; infer_instance
  | .journaled _ (.final _) | .moved _ _ .spawning _ | .moved _ _ .idle _ |
    .moved _ _ .interrupted _ | .moved _ _ .timeout _ | .moved _ _ .failedUnknown _ |
    .moved _ _ .done _ | .wrote .. | .made .. | .attached .. | .started .. | .requeued .. |
    .emitted .. | .polled .. | .applied .. | .timedOut .. | .stopped .. | .died .. |
    .spawned .. | .restarted => instDecidableTrue

/-- What is read from the last lines of the thread's journal. -/
def readAnswer (threadId : String) (history : List Mark) : Option String :=
  ((journaled threadId history).take 50).findSome? EngineEvent.reads

theorem reads_final (finalAnswer : String) :
    (EngineEvent.final finalAnswer).reads = some finalAnswer := stripFinal_final finalAnswer

/-- The result reads the events off their lines. -/
theorem Journaled.read {st : Store} (kept : Journaled st.journal history threadId) :
    journalFinalAnswer (st.journalTail threadId 50) = readAnswer threadId history := by
  have read : EngineEvent.reads = stripFinal ∘ EngineEvent.line := rfl
  have lines : (st.journalOf threadId).map (·.line) =
      ((journaled threadId history).map EngineEvent.line).reverse := kept.lines
  rw [journalFinalAnswer_tail kept.ascending, lines, List.reverse_reverse, ← List.map_take,
    List.findSome?_map, readAnswer, read]

/-- No progress note reads like an answer; failures are not journaled. -/
def NotesApart (_ : List Mark) : Mark → Prop
  | .journaled _ (.note text) | .journaled _ (.failed text) => stripFinal text = none
  | _ => True

instance : Decidable (NotesApart earlier mark) := by
  unfold NotesApart
  split <;> infer_instance

def EngineEvent.answer : EngineEvent → Option String
  | final finalAnswer => some finalAnswer
  | accepted _ | note _ | failed _ => none

/-- The latest answer among the last fifty events that were journaled for the thread. -/
def lastAnswer (threadId : String) (history : List Mark) : Option String :=
  ((journaled threadId history).take 50).findSome? EngineEvent.answer

theorem reads_accepted (engineTurnId : String) :
    (EngineEvent.accepted engineTurnId).reads = none := by
  apply if_neg
  have line : (EngineEvent.accepted engineTurnId).line.toList =
      "accepted: ".toList ++ engineTurnId.toList := String.toList_append
  rw [line]
  intro leads
  exact absurd (List.cons_prefix_cons.mp leads).1 (by decide)

/-- Lines that are no answers do not read like one. -/
theorem NotesApart.reads (apart : Each NotesApart history) :
    ∀ event ∈ journaled threadId history, event.reads = event.answer := by
  intro event inside
  obtain ⟨mark, known, named⟩ := List.mem_filterMap.mp inside
  obtain ⟨earlier, fits⟩ := apart.fits_of_mem known
  cases mark with
  | journaled id event' =>
    dsimp only at named
    split at named
    · cases named
      cases event with
      | accepted engineTurnId => exact reads_accepted engineTurnId
      | final finalAnswer => exact reads_final finalAnswer
      | note text | failed text => exact fits
    · cases named
  | _ => cases named

private theorem findSome_congr {f g : EngineEvent → Option String} {events : List EngineEvent}
    (same : ∀ event ∈ events, f event = g event) : events.findSome? f = events.findSome? g := by
  induction events with
  | nil => rfl
  | cons event rest ih =>
    have here := same event List.mem_cons_self
    rw [List.findSome?_cons, List.findSome?_cons, here,
      ih fun other inside => same other (List.mem_cons_of_mem _ inside)]

theorem readAnswer_of_apart (apart : Each NotesApart history) :
    readAnswer threadId history = lastAnswer threadId history := by
  apply findSome_congr
  intro event inside
  exact NotesApart.reads apart event (List.mem_of_mem_take inside)

/-- The turn that was answered last is the latest one that was answered. -/
theorem answer_of_latestAnswer (latest : latestAnswer threadId history = some answer) :
    (journaled threadId history).findSome? EngineEvent.answer = some answer := by
  induction history with
  | nil => cases latest
  | cons mark earlier ih =>
    cases mark with
    | journaled id event =>
      by_cases own : id = threadId
      · subst own
        have lines : journaled id (.journaled id event :: earlier) =
            event :: journaled id earlier := by
          simp [journaled]
        rw [lines, List.findSome?_cons]
        cases event with
        | final finalAnswer =>
          rw [latestAnswer, if_pos rfl] at latest
          exact latest
        | _ => exact ih latest
      · have lines : journaled threadId (.journaled id event :: earlier) =
            journaled threadId earlier := by
          simp [journaled, own]
        rw [lines]
        apply ih
        cases event with
        | final finalAnswer => rwa [latestAnswer, if_neg own] at latest
        | _ => exact latest
    | moved id source target alone =>
      apply ih
      cases target with
      | running =>
        rw [latestAnswer] at latest
        split at latest
        · cases latest
        · exact latest
      | _ => exact latest
    | _ => exact ih latest

/-- As long as it is among the last lines, the answer of the latest turn is the last one. -/
theorem lastAnswer_of_latestAnswer (latest : latestAnswer threadId history = some answer)
    (there : lastAnswer threadId history ≠ none) : lastAnswer threadId history = some answer := by
  have all := answer_of_latestAnswer latest
  rw [← List.take_append_drop 50 (journaled threadId history), List.findSome?_append] at all
  obtain ⟨last, found⟩ := Option.ne_none_iff_exists'.mp there
  rw [lastAnswer] at found ⊢
  rw [found] at all ⊢
  exact all

/-- A line that reads like no answer pushes the first of fifty lines out. -/
theorem findSome_pushed {lines : List EngineEvent} {answer : Option String}
    (before : (lines.take 50).findSome? EngineEvent.reads = answer)
    (still : answer ≠ none → ∃ line ∈ lines.take 49, line.reads ≠ none) :
    (lines.take 49).findSome? EngineEvent.reads = answer := by
  have split : lines.take 50 = lines.take 49 ++ lines[49]?.toList := List.take_add_one
  rw [split, List.findSome?_append] at before
  cases found : (lines.take 49).findSome? EngineEvent.reads with
  | some read => rw [← before, found]; rfl
  | none =>
    by_contra differs
    obtain ⟨line, inside, reads⟩ := still (Ne.symm differs)
    exact reads (List.findSome?_eq_none_iff.mp found line inside)

/-- A line that does not answer. -/
theorem read_line {event : EngineEvent}
    (repeats : event.reads ≠ none → event.reads = latestAnswer threadId history)
    (stays : latestAnswer threadId history ≠ none → event.reads = none →
      ∃ line ∈ (journaled threadId history).take 49, line.reads ≠ none)
    (before : readAnswer threadId history = latestAnswer threadId history) :
    (event :: (journaled threadId history).take 49).findSome? EngineEvent.reads =
      latestAnswer threadId history := by
  rw [List.findSome?_cons]
  cases reads : event.reads with
  | some read =>
    rw [reads] at repeats
    exact repeats (Option.some_ne_none read)
  | none => exact findSome_pushed before fun answered => stays answered reads

/-- One mark and what is read after it. -/
theorem Legible.read {mark : Mark} (legible : Legible history mark)
    (before : readAnswer threadId history = latestAnswer threadId history) :
    readAnswer threadId (mark :: history) = latestAnswer threadId (mark :: history) := by
  cases mark with
  | journaled id event =>
    by_cases own : id = threadId
    · subst own
      have lines : (journaled id (.journaled id event :: history)).take 50 =
          event :: (journaled id history).take 49 := by
        simp [journaled]
      rw [readAnswer, lines]
      cases event with
      | final finalAnswer => simp [reads_final, latestAnswer]
      | _ => exact read_line legible.1 legible.2 before
    · have lines : journaled threadId (.journaled id event :: history) =
          journaled threadId history := by
        simp [journaled, own]
      rw [readAnswer, lines]
      cases event with
      | final finalAnswer => rw [latestAnswer, if_neg own]; exact before
      | _ => exact before
  | moved id source target alone =>
    cases target with
    | running =>
      rw [latestAnswer]
      split
      · rename_i own
        subst own
        exact List.findSome?_eq_none_iff.mpr legible
      · exact before
    | _ => exact before
  | _ => exact before

theorem Legible.read_run (legible : Each Legible history) :
    readAnswer threadId history = latestAnswer threadId history := by
  induction history with
  | nil => rfl
  | cons mark earlier ih => exact legible.2.read (ih legible.1)

end Ending

section Call
variable {caller threadId : String} {w s : World} {i : Input Outside} {r : CellResult}

/-- What a call that answers has found. -/
theorem cellResult_meets {now : Snap} :
    Meets World.Quiet (·.At now) (cellResult caller threadId) (fun r _ =>
      r.crewdThreadId = threadId ∧
        r.finalAnswer = journalFinalAnswer (now.store.journalTail threadId 50)) := by
  have quiet : ∀ w w' : World, w.Quiet w' → w.Quiet w' := fun _ _ same => same
  refine Meets.bind (Q := fun thread w => w.At now ∧ thread.crewdThreadId = threadId) ?_
    fun thread => meets_from fun _ ⟨here, named⟩ => ⟨_, here, ?_⟩
  · refine (meets_query quiet _).bind fun row => ?_
    cases row with
    | none => exact Meets.throw
    | some thread => exact Meets.pure fun _ ⟨here, found⟩ => ⟨here, (thread_of_find found.symm).2⟩
  · refine Meets.bind (Q := fun _ w => w.At now) (Meets.ite (fun _ => Meets.pure fun _ h => h)
      fun _ => (checkCapability_silent _ _).meets quiet) fun _ => ?_
    refine (meets_query quiet _).bind fun tail => Meets.pure fun _ ⟨_, found⟩ => ?_
    exact ⟨named, congrArg journalFinalAnswer found⟩

/-- The call is one section. -/
theorem handleResult_step {params : Params CellResultParams}
    (called : (handleResult caller params).run.step i w = some (.done (.ok r), s)) :
    ∃ threadId, (cellResult caller threadId).exec (w.install i) = (.ok r, s) := by
  cases checked : rejectClientIdentityKeys params.keys [] with
  | error e =>
    have code : (handleResult caller params).run = .done (.error e) := by
      rw [handleResult, checked]
      rfl
    rw [code] at called
    cases called
  | ok u =>
    cases parsed : parseParams params with
    | error e =>
      have code : (handleResult caller params).run = .done (.error e) := by
        rw [handleResult, checked, parsed]
        rfl
      rw [code] at called
      cases called
    | ok p =>
      have code : handleResult caller params = locked (cellResult caller p.crewdThreadId) := by
        rw [handleResult, checked, parsed]
        rfl
      rw [code] at called
      obtain ⟨answered, moved⟩ := Prod.mk.inj (Option.some.inj called)
      exact ⟨p.crewdThreadId, Prod.ext (Process.done.inj answered) moved⟩

theorem journaled_reachable [Platform] {v : World} {c : FabricConfig} (blank : Blank v)
    (reached : service.Reaches v c) (threadId : String) :
    Journaled c.shared.store.journal c.shared.history threadId := by
  have kept : ∀ id, Journaled c.shared.store.journal c.shared.history id := by
    apply always (P := fun w => ∀ id, Journaled w.store.journal w.history id) blank reached
    · rw [blank.store, blank.history]
      exact fun id => ⟨rfl, List.Pairwise.nil⟩
    · exact fun _ _ _ step _ kept => step.journalStep.journaled kept
  exact kept threadId

/-- A call of `cell_result` reads its answer from the last lines of the journal. -/
theorem result_reads [Platform] {v : World} {c : FabricConfig} (blank : Blank v)
    (reached : service.Reaches v c) {params : Params CellResultParams}
    (called : (handleResult caller params).run.step i c.shared = some (.done (.ok r), s)) :
    r.finalAnswer = readAnswer r.crewdThreadId c.shared.history := by
  obtain ⟨threadId, section_⟩ := handleResult_step called
  have found := (cellResult_meets (c.shared.install i) (World.at_snapshot _)).2 r
    (by rw [section_])
  rw [found.2, found.1]
  exact (journaled_reachable blank reached threadId).read

/-- In every run in which no progress note reads like an answer, `cell_result` reports
the latest answer among the last fifty lines of the thread's journal, whichever turn it
ended; it is the one of the latest turn, when that one is among them. -/
theorem result_reports_last_answer [Platform] {v : World} {c : FabricConfig} (blank : Blank v)
    (reached : service.Reaches v c) (apart : Each NotesApart c.shared.history)
    {params : Params CellResultParams}
    (called : (handleResult caller params).run.step i c.shared = some (.done (.ok r), s)) :
    r.finalAnswer = lastAnswer r.crewdThreadId c.shared.history ∧
      ∀ answer, latestAnswer r.crewdThreadId c.shared.history = some answer →
        lastAnswer r.crewdThreadId c.shared.history ≠ none → r.finalAnswer = some answer := by
  have read := (result_reads blank reached called).trans (readAnswer_of_apart apart)
  constructor
  · exact read
  · intro answer latest there
    exact read.trans (lastAnswer_of_latestAnswer latest there)

/-- In every run in which no other line of a thread's journal reads like an answer, its
answer is never pushed out of the last lines, and no turn begins while an earlier answer is
among them, `cell_result` reports the answer that the latest turn of the thread ended
with, and none when it did not end with one. -/
theorem result_reports_latest_answer [Platform] {v : World} {c : FabricConfig} (blank : Blank v)
    (reached : service.Reaches v c) (legible : Each Legible c.shared.history)
    {params : Params CellResultParams}
    (called : (handleResult caller params).run.step i c.shared = some (.done (.ok r), s)) :
    r.finalAnswer = latestAnswer r.crewdThreadId c.shared.history := by
  rw [result_reads blank reached called, Legible.read_run legible]

/-- A call of `cell_result` on the first thread of a sample run. -/
def asked (c : FabricConfig) :=
  (handleResult "coder" ⟨["crewd_thread_id"], .ok ⟨firstThread⟩⟩).run.step (moment 1783242009)
    c.shared

def reported (c : FabricConfig) : Option CellResult :=
  match asked c with
  | some (.done (.ok r), _) => some r
  | _ => none

/-- A sample run, what a call reports after it, and the answer of the latest turn. -/
theorem reported_of_runs {moves : List (Move (Input Outside) Request Event)}
    {answers : Option String × Option String}
    (ran : ((sampleService.runs (System.dormant blankWorld) moves).bind fun c => (reported c).map
      fun r => (r.finalAnswer, latestAnswer r.crewdThreadId c.shared.history)) = some answers) :
    ∃ c r s, sampleService.runs (System.dormant blankWorld) moves = some c ∧
      asked c = some (.done (.ok r), s) ∧ r.finalAnswer = answers.1 ∧
      latestAnswer r.crewdThreadId c.shared.history = answers.2 := by
  obtain ⟨c, run, found⟩ := Option.bind_eq_some_iff.mp ran
  obtain ⟨r, answered, rfl⟩ := Option.map_eq_some_iff.mp found
  rw [reported] at answered
  split at answered
  · rename_i r' s called
    cases answered
    exact ⟨c, r, s, run, called, rfl, rfl⟩
  · cases answered

/-- The answer of a turn that was completed. -/
theorem result_reports_last_answer_done : ∃ c r s, sampleService.Reaches blankWorld c ∧
    asked c = some (.done (.ok r), s) ∧ r.finalAnswer = some "done" := by
  let _ := Platform.sample
  have ran : (sampleService.runs (System.dormant blankWorld) firstAnswer).map (fun c => decide
      (Each NotesApart c.shared.history)) = some true := by
    decide +kernel
  obtain ⟨c, r, s, run, called, reported, latest⟩ := @reported_of_runs firstAnswer
    (some "done", some "done") (by decide +kernel)
  rw [run] at ran
  have apart : Each NotesApart c.shared.history := of_decide_eq_true (Option.some.inj ran)
  have reached : sampleService.Reaches blankWorld c := System.leads_of_runs _ run
  have last := result_reports_last_answer blankWorld_blank reached apart called
  refine ⟨c, r, s, reached, called, last.2 "done" latest ?_⟩
  rw [← last.1, reported]
  exact Option.some_ne_none "done"

/-- While the second turn of a thread runs, the answer of the first one is reported. -/
theorem earlier_answer_reported : ∃ c r s, sampleService.Reaches blankWorld c ∧
    asked c = some (.done (.ok r), s) ∧ r.finalAnswer = some "done" ∧
    latestAnswer r.crewdThreadId c.shared.history = none := by
  let _ := Platform.sample
  obtain ⟨c, r, s, run, facts⟩ := @reported_of_runs
    (firstAnswer ++ sendingTask 1 firstThread 1783242003 ++ ticking 18 1783242004)
    (some "done", none) (by decide +kernel)
  exact ⟨c, r, s, System.leads_of_runs _ run, facts⟩

/-- A progress note of a turn that still runs is reported as its answer. -/
theorem note_reported : ∃ c r s, sampleService.Reaches blankWorld c ∧
    asked c = some (.done (.ok r), s) ∧ r.finalAnswer = some "tests green" ∧
    latestAnswer r.crewdThreadId c.shared.history = none := by
  let _ := Platform.sample
  obtain ⟨c, r, s, run, facts⟩ := @reported_of_runs
    (firstTurn ++ [emits 7 (.accepted "t1"), emits 7 (.note "final: tests green")] ++
      ticking 13 1783242002)
    (some "tests green", none) (by decide +kernel)
  exact ⟨c, r, s, System.leads_of_runs _ run, facts⟩

end Call

end Crewd.Fabric
