import Crewd.Fabric.Atomicity
import Crewd.Fabric.Results

/-! The numbers of the journal. Whatever appends to whatever threads are made, and
whichever of them fail, the lines of each thread are numbered from one in the order of
its appends, and the tail shows the last of them with their numbers. -/
namespace Crewd.Fabric
open Autocommit

section Numbers

/-- The lines that were appended to the thread, in order. -/
def appendedTo (threadId : String) (calls : List (String × String)) : List String :=
  (calls.filter (·.1 = threadId)).map Prod.snd

/-- The rows of every thread are its appended lines, numbered from one. -/
def Enumerated (rows : List JournalRow) (calls : List (String × String)) : Prop :=
  ∀ threadId, (rows.filter (·.threadId = threadId)).map (fun row => (row.line, row.seq)) =
    (appendedTo threadId calls).zipIdx 1

variable {rows : List JournalRow} {calls : List (String × String)} {st : Store}
  {threadId : String}

theorem foldl_max_range' (first k : Nat) :
    (List.range' (first + 1) k).foldl max first = first + k := by
  induction k with
  | zero => rfl
  | succ k ih =>
    rw [List.range'_concat, List.foldl_append, ih]
    simp only [List.foldl_cons, List.foldl_nil]
    omega

theorem Enumerated.seqs (numbered : Enumerated st.journal calls) (threadId : String) :
    (st.journalOf threadId).map (·.seq) = List.range' 1 (appendedTo threadId calls).length := by
  have each := congrArg (List.map Prod.snd) (numbered threadId)
  rwa [List.map_map, List.zipIdx_map_snd] at each

theorem Enumerated.next (numbered : Enumerated st.journal calls) (threadId : String) :
    st.nextJournalSeq threadId = (appendedTo threadId calls).length + 1 := by
  have seqs := numbered.seqs threadId
  unfold Store.journalOf at seqs
  rw [Store.nextJournalSeq, seqs, foldl_max_range', Nat.zero_add]

/-- The next row of a thread leaves the rows of the others as they are. -/
theorem Enumerated.append {row : JournalRow} (numbered : Enumerated st.journal calls)
    (seq : row.seq = st.nextJournalSeq row.threadId) :
    Enumerated (st.journal ++ [row]) (calls ++ [(row.threadId, row.line)]) := by
  intro threadId
  have before := numbered threadId
  rw [numbered.next] at seq
  by_cases own : row.threadId = threadId
  · subst own
    have lines : appendedTo row.threadId (calls ++ [(row.threadId, row.line)]) =
        appendedTo row.threadId calls ++ [row.line] := by
      simp [appendedTo]
    rw [lines, List.zipIdx_append, List.filter_append, List.map_append, before]
    simp [seq, Nat.add_comm]
  · have lines : appendedTo threadId (calls ++ [(row.threadId, row.line)]) =
        appendedTo threadId calls := by
      simp [appendedTo, own]
    rw [lines, List.filter_append, List.map_append, before]
    simp [own]

theorem Enumerated.ascending (numbered : Enumerated st.journal calls) (threadId : String) :
    Ascending (st.journalOf threadId) := by
  have sorted : ((st.journalOf threadId).map (·.seq)).Pairwise (· < ·) := by
    rw [numbered.seqs]
    exact List.pairwise_lt_range'
  exact List.pairwise_map.mp sorted

/-- The number, padded to four digits, a space and the line. -/
def numberedLine (entry : String × Nat) : String := padded 4 entry.2 ++ " " ++ entry.1

/-- The tail is the end of the numbered lines. -/
theorem Enumerated.tail (numbered : Enumerated st.journal calls) (threadId : String) (n : Nat) :
    st.journalTail threadId n = (((appendedTo threadId calls).zipIdx 1).drop
      ((appendedTo threadId calls).length - n)).map numberedLine := by
  have sorted := (numbered.ascending threadId).sorted
  have length := congrArg List.length (numbered threadId)
  rw [List.length_map, List.length_zipIdx] at length
  have renders : JournalRow.render = numberedLine ∘ fun row => (row.line, row.seq) := rfl
  unfold Store.journalOf at sorted
  rw [Store.journalTail, sorted, List.take_reverse, List.reverse_reverse, renders,
    ← List.map_map, List.map_drop, length, numbered threadId]

theorem afterSpace_numberedLine (seq : Nat) (line : String) :
    afterSpace (numberedLine (line, seq)) = some line :=
  afterSpace_render ⟨"", seq, line, ""⟩

end Numbers

section Calls

/-- A call appends the next row of its thread, or leaves the tables as they were. -/
theorem journalAppend_whole (st : Store) (threadId line : String) (event : EngineEvent) :
    Whole st (·.store = st) (journalAppend threadId line event) (fun next w =>
      next = st.nextJournalSeq threadId ∧
        ∃ time, w.store.journal = st.journal ++ [⟨threadId, next, line, time⟩]) := by
  refine Whole.bind (Whole.silent Silent.mayFail) fun _ => ?_
  refine Whole.atomically (T := fun _ _ => True) (fun _ same => same) fun w same => ?_
  have free : ∀ s t : World, s.Quiet t → True := fun _ _ _ => trivial
  refine Meets.bind (Q := fun next w => next = st.nextJournalSeq threadId ∧
    ∃ time, w.store.journal = st.journal ++ [⟨threadId, next, line, time⟩]) ?_ fun next => ?_
  · refine (meets_query free _).bind fun next => meets_from fun _ ⟨here, found⟩ => ⟨_, here, ?_⟩
    refine (Silent.nowRfc3339.meets free).bind fun time => (meets_mayFail free).bind fun _ => ?_
    refine ((Silent.readStore _).meets free).bind fun taken => Meets.ite (fun _ => Meets.throw) ?_
    intro untaken
    refine Meets.bind (Q := fun _ w => w.store.journal = st.journal ++ [⟨threadId, next, line, time⟩])
      (Meets.step (fun _ _ => trivial) fun v here => ?_) fun _ => Meets.pure fun v rows => ?_
    · have tables : v.store = st := here.store.trans same
      simp only [tables]
    · exact ⟨found.trans (congrArg (·.nextJournalSeq threadId) same), time, rows⟩
  · refine Meets.given fun v written => ⟨(·.At v.snapshot), v.at_snapshot, ?_⟩
    refine (meets_mayFail free).bind fun _ => Meets.pure fun u here => ?_
    rw [here.store]
    exact written

/-- A journal after the appends that were made to it, in order. An append that fails is
not among them, and what else happens to the daemon leaves the journal alone. -/
inductive Appended : World → List (String × String) → Prop
  | new {w : World} : w.store.journal = [] → Appended w []
  | line {w w' : World} {calls : List (String × String)} {threadId line : String}
      {event : EngineEvent} {next : Nat} : Appended w calls →
      (journalAppend threadId line event).exec w = (.ok next, w') →
      Appended w' (calls ++ [(threadId, line)])
  | failed {w w' : World} {calls : List (String × String)} {threadId line : String}
      {event : EngineEvent} {e : BusError} : Appended w calls →
      (journalAppend threadId line event).exec w = (.error e, w') → Appended w' calls
  | aside {w w' : World} {calls : List (String × String)} : Appended w calls →
      w'.store.journal = w.store.journal → Appended w' calls

variable {w : World} {calls : List (String × String)}

theorem Appended.enumerated (run : Appended w calls) : Enumerated w.store.journal calls := by
  induction run with
  | new empty =>
    rw [empty]
    exact fun _ => rfl
  | @line w w' calls threadId line event next run call ih =>
    have done := journalAppend_whole w.store threadId line event w rfl
    rw [call] at done
    obtain ⟨seq, time, rows⟩ := done
    rw [rows]
    exact ih.append seq
  | @failed w w' calls threadId line event e run call ih =>
    have done := journalAppend_whole w.store threadId line event w rfl
    rw [call] at done
    rw [done]
    exact ih
  | aside run same ih =>
    rw [same]
    exact ih

/-- In whatever order lines are appended to whatever threads, those of each thread are
numbered from one in the order of its appends, the tail is the last of them with their
numbers, and what comes after the first space is the line, whatever its number. -/
theorem journal_numbered (run : Appended w calls) (threadId : String) (n : Nat) :
    (w.store.journalOf threadId).map (fun row => (row.line, row.seq)) =
      (appendedTo threadId calls).zipIdx 1 ∧
    (∀ line event next w', (journalAppend threadId line event).exec w = (.ok next, w') →
      next = (appendedTo threadId calls).length + 1) ∧
    w.store.journalTail threadId n = (((appendedTo threadId calls).zipIdx 1).drop
      ((appendedTo threadId calls).length - n)).map numberedLine ∧
    (w.store.journalTail threadId n).length = min n (appendedTo threadId calls).length ∧
    (w.store.journalTail threadId n).map afterSpace = ((appendedTo threadId calls).drop
      ((appendedTo threadId calls).length - n)).map some ∧
    ∀ seq line, afterSpace (numberedLine (line, seq)) = some line := by
  have numbered := run.enumerated
  have tail := numbered.tail threadId n
  refine ⟨numbered threadId, ?_, tail, ?_, ?_, afterSpace_numberedLine⟩
  · intro line event next w' call
    have done := journalAppend_whole w.store threadId line event w rfl
    rw [call] at done
    rw [done.1, numbered.next]
  · rw [tail, List.length_map, List.length_drop, List.length_zipIdx]
    omega
  · have recovers : afterSpace ∘ numberedLine = some ∘ Prod.fst := by
      funext ⟨line, seq⟩
      simp only [Function.comp_apply, afterSpace_numberedLine]
    rw [tail, List.map_map, recovers, ← List.map_map, List.map_drop, List.zipIdx_map_fst]

theorem nowRfc3339_clear (w : World) : ∃ time w', (nowRfc3339 : Act String).exec w =
    (.ok time, w') ∧ w'.store = w.store ∧ w'.input.faults = w.input.faults := by
  simp only [nowRfc3339, nowUnix, nowMs, Action.exec_bind, Action.exec_step, Action.exec_pure]
  split <;> exact ⟨_, _, rfl, rfl, rfl⟩

/-- The number of the next row is free, so that an append fails only with a statement. -/
theorem Appended.succeeds (run : Appended w calls) (clear : w.input.faults = [])
    (threadId line : String) (event : EngineEvent) :
    ∃ next w', (journalAppend threadId line event).exec w = (.ok next, w') ∧
      Appended w' (calls ++ [(threadId, line)]) ∧ w'.input.faults = [] := by
  obtain ⟨time, v, read, tables, faults⟩ := nowRfc3339_clear w
  have clear' : v.input.faults = [] := faults.trans clear
  have free : v.store.journal.any (fun row => row.threadId = threadId ∧
      row.seq = w.store.nextJournalSeq threadId) = false := by
    rw [tables, List.any_eq_false]
    intro row member taken
    obtain ⟨own, seq⟩ := of_decide_eq_true taken
    have inside : row.seq ∈ (w.store.journal.filter (·.threadId = threadId)).map (·.seq) :=
      List.mem_map_of_mem (List.mem_filter.mpr ⟨member, decide_eq_true own⟩)
    have below := (@le_foldl_max 0 _).2 row.seq inside
    rw [seq, Store.nextJournalSeq] at below
    omega
  have call : ∃ next w', (journalAppend threadId line event).exec w = (.ok next, w') ∧
      w'.input.faults = [] := by
    simp only [journalAppend, transaction, committing, atomically, Action.exec_bind, Action.exec_mk,
      mayFail_clear clear, query_clear _ clear, read, mayFail_clear clear', readStore, writeLine,
      Action.exec_step, free]
    rw [if_neg Bool.false_ne_true]
    simp only [Action.exec_bind, Action.exec_step, Action.exec_pure, mayFail_clear, clear']
    exact ⟨_, _, rfl, clear'⟩
  obtain ⟨next, w', done, left⟩ := call
  exact ⟨next, w', done, run.line done, left⟩

/-- Appends to two threads in turn. -/
theorem journal_numbered_in_turn : ∃ w, Appended w [("t", "accepted: 1"), ("u", "accepted: 2"),
    ("t", "final: done")] ∧ w.store.journalTail "t" 1 = ["0002 final: done"] := by
  have start : Appended blankWorld [] := .new rfl
  obtain ⟨_, first, -, run, clear⟩ := start.succeeds rfl "t" "accepted: 1" (.accepted "1")
  obtain ⟨_, second, -, run, clear⟩ := run.succeeds clear "u" "accepted: 2" (.accepted "2")
  obtain ⟨_, third, -, run, -⟩ := run.succeeds clear "t" "final: done" (.final "done")
  exact ⟨third, run, (journal_numbered run "t" 1).2.2.1.trans (by decide)⟩

end Calls

end Crewd.Fabric
