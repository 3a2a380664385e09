import Crewd.Fabric.Contexts

/-! Whose events a turn takes. A poll takes all that the adapter of the cell holds and
applies it to the turn in flight, also what an engine reports on a turn that was given
up. Where engines report on the turn they were asked for last, and a turn is started only
on an adapter that holds no events, each event is applied to its own turn. -/
namespace Crewd.Fabric
open Autocommit Concurrent Table History

variable {cell : String} {self : Actor} {w w' : World}

section Marks
variable {turn : Nat} {history marks : List Mark} {earlier : List Mark} {mark : Mark}

/-- The cell whose engine was asked for the turn. -/
def cellOf (turn : Nat) : List Mark → Option String
  | [] => none
  | .started _ _ cell _ number _ :: earlier =>
    if number = turn then some cell else cellOf turn earlier
  | _ :: earlier => cellOf turn earlier

/-- The turn that an engine of the cell was asked for last. -/
def lastTurn (cell : String) : List Mark → Option Nat
  | [] => none
  | .started _ _ other _ number _ :: earlier =>
    if other = cell then some number else lastTurn cell earlier
  | _ :: earlier => lastTurn cell earlier

/-- The adapter of the cell holds events that no turn has taken. -/
def unread (cell : String) : List Mark → Bool
  | [] => false
  | .made other _ :: earlier => if other = cell then false else unread cell earlier
  | .emitted turn _ :: earlier => cellOf turn earlier = some cell ∨ unread cell earlier
  | .polled turn _ _ :: earlier =>
    if cellOf turn earlier = some cell then false else unread cell earlier
  | _ :: earlier => unread cell earlier

/-- An engine reports on the turn it was asked for last, and is asked for a turn when
all events of its adapter have been taken. -/
def Timely (earlier : List Mark) : Mark → Prop
  | .started _ _ cell _ _ _ => unread cell earlier = false
  | .emitted turn _ => ∀ cell ∈ cellOf turn earlier, lastTurn cell earlier = some turn
  | _ => True

/-- Turns are numbered apart, and an event that is taken or applied was emitted for the
turn that it is taken for or applied to. -/
def Attributes (earlier : List Mark) : Mark → Prop
  | .started _ _ _ _ turn _ => turn = earlier.length
  | .polled turn tag event | .applied turn tag event _ =>
    tag = turn ∧ Mark.emitted tag event ∈ earlier
  | _ => True

instance : Decidable (Timely earlier mark) := by
  unfold Timely
  split <;> infer_instance

/-- Marks that tell nothing of the events that an adapter holds. -/
def Mark.aside : Mark → Bool
  | .made _ _ | .started _ _ _ _ _ _ | .emitted _ _ | .polled _ _ _ => false
  | _ => true

theorem unseen_aside {β : Type} {f : List Mark → β}
    (past : ∀ mark earlier, mark.aside = true → f (mark :: earlier) = f earlier)
    (aside : ∀ mark ∈ marks, mark.aside = true) : f (marks ++ history) = f history := by
  induction marks with
  | nil => rfl
  | cons mark rest ih =>
    have first := past mark (rest ++ history) (aside mark List.mem_cons_self)
    have others := ih fun other inside => aside other (List.mem_cons_of_mem _ inside)
    exact first.trans others

theorem cellOf_aside (aside : ∀ mark ∈ marks, mark.aside = true) :
    cellOf turn (marks ++ history) = cellOf turn history := by
  apply unseen_aside _ aside
  intro mark earlier apart
  cases mark with
  | started _ _ _ _ _ _ => cases apart
  | _ => rfl

theorem lastTurn_aside (aside : ∀ mark ∈ marks, mark.aside = true) :
    lastTurn cell (marks ++ history) = lastTurn cell history := by
  apply unseen_aside _ aside
  intro mark earlier apart
  cases mark with
  | started _ _ _ _ _ _ => cases apart
  | _ => rfl

theorem unread_aside (aside : ∀ mark ∈ marks, mark.aside = true) :
    unread cell (marks ++ history) = unread cell history := by
  apply unseen_aside _ aside
  intro mark earlier apart
  cases mark with
  | made _ _ | started _ _ _ _ _ _ | emitted _ _ | polled _ _ _ => cases apart
  | _ => rfl

/-- The turn that is numbered next has no cell yet. -/
theorem cellOf_lt (each : Each Attributes history) (found : cellOf turn history = some cell) :
    turn < history.length := by
  induction history with
  | nil => cases found
  | cons mark earlier ih =>
    apply Nat.lt_succ_of_le
    cases mark with
    | started jobId id other context number ok =>
      rw [cellOf] at found
      split at found
      · rename_i same
        exact Nat.le_of_eq (same.symm.trans each.2)
      · exact Nat.le_of_lt (ih each.1 found)
    | _ => exact Nat.le_of_lt (ih each.1 found)

/-- An event that was taken for a turn was emitted before, for that turn. -/
theorem attributes_of_polled {tag : Nat} {event : EngineEvent} (each : Each Attributes history)
    (polled : Mark.polled turn tag event ∈ history) :
    tag = turn ∧ Mark.emitted tag event ∈ history := by
  obtain ⟨later, before, rfl⟩ := List.append_of_mem polled
  obtain ⟨same, emitted⟩ := each.at_mark
  exact ⟨same, List.mem_append_right _ (List.mem_cons_of_mem _ emitted)⟩

end Marks

section Adapters
variable {history : List Mark}

/-- The adapter of the cell holds events of the turn that it was asked for last. -/
structure Reports (history : List Mark) (cell : String) (e : Engine) : Prop where
  holds : unread cell history = !e.outbox.isEmpty
  asked : ∀ turn ∈ e.started, cellOf turn history = some cell
  current : ∀ event ∈ e.outbox, lastTurn cell history = some event.1 ∧
    Mark.emitted event.1 event.2 ∈ history

/-- The engine of the cell was asked for the turn last, for this thread and job. -/
structure Flies (history : List Mark) (id : String) (turn : InFlightTurn) : Prop where
  asked : cellOf turn.turn history = some turn.cell
  last : lastTurn turn.cell history = some turn.turn
  started : ∃ context, Mark.started turn.jobId id turn.cell context turn.turn true ∈ history

/-- Marks of no turn that is started leave what is known of adapters and turns. -/
theorem Reports.grown {later : List Mark} {e : Engine} (reports : Reports history cell e)
    (grows : history <:+ later) (cells : ∀ turn, cellOf turn later = cellOf turn history)
    (last : lastTurn cell later = lastTurn cell history)
    (taken : unread cell later = unread cell history) : Reports later cell e := by
  constructor
  · rw [taken]
    exact reports.holds
  · intro turn asked
    rw [cells]
    exact reports.asked turn asked
  · intro event held
    obtain ⟨current, emitted⟩ := reports.current event held
    exact ⟨last.trans current, grows.subset emitted⟩

theorem Flies.grown {later : List Mark} {id : String} {turn : InFlightTurn}
    (flies : Flies history id turn) (grows : history <:+ later)
    (asked : cellOf turn.turn later = cellOf turn.turn history)
    (last : lastTurn turn.cell later = lastTurn turn.cell history) : Flies later id turn := by
  constructor
  · exact asked.trans flies.asked
  · exact last.trans flies.last
  · obtain ⟨context, started⟩ := flies.started
    exact ⟨context, grows.subset started⟩

structure Attributed (w : World) : Prop where
  adapters : ∀ cell e, w.memory.scheduler.engine cell = some e → Reports w.history cell e
  flying : ∀ entry ∈ w.memory.scheduler.inFlight, Flies w.history entry.1 entry.2
  each : Each Attributes w.history

/-- The adapters that remain hold what they held and were asked for the same turns. -/
def Outlast : World → World → Prop :=
  Survive fun e e' => e'.outbox = e.outbox ∧ e'.started = e.started

theorem Outlast.same (engines : w'.memory.scheduler.engines = w.memory.scheduler.engines) :
    Outlast w w' :=
  Survive.same (fun _ => ⟨rfl, rfl⟩) engines

theorem Outlast.updated {f : Engine → Engine}
    (engines : w'.memory.scheduler.engines = alter cell f w.memory.scheduler.engines)
    (keeps : Attribute f) : Outlast w w' :=
  Survive.updated (fun _ => ⟨rfl, rfl⟩) engines fun e => ⟨(keeps e).1, (keeps e).2.1⟩

/-- The turns in flight are among those that were, for the same threads and jobs. -/
def Remain (w w' : World) : Prop := ∀ entry ∈ w'.memory.scheduler.inFlight,
  ∃ old ∈ w.memory.scheduler.inFlight, entry.1 = old.1 ∧ entry.2.cell = old.2.cell ∧
    entry.2.turn = old.2.turn ∧ entry.2.jobId = old.2.jobId

theorem Remain.fewer (sub : ∀ entry ∈ w'.memory.scheduler.inFlight,
    entry ∈ w.memory.scheduler.inFlight) : Remain w w' :=
  fun entry inside => ⟨entry, sub entry inside, rfl, rfl, rfl, rfl⟩

theorem Remain.same (inFlight : w'.memory.scheduler.inFlight = w.memory.scheduler.inFlight) :
    Remain w w' := by
  apply Remain.fewer
  rw [inFlight]
  exact fun _ inside => inside

/-- What the adapter of the turn's cell holds was emitted for the turn. -/
theorem Attributed.own {entry : String × InFlightTurn} {e : Engine} {event : Nat × EngineEvent}
    (attributed : Attributed w) (flying : entry ∈ w.memory.scheduler.inFlight)
    (there : w.memory.scheduler.engine entry.2.cell = some e) (held : event ∈ e.outbox) :
    event.1 = entry.2.turn := by
  obtain ⟨last, _⟩ := (attributed.adapters entry.2.cell e there).current event held
  exact Option.some.inj (last.symm.trans (attributed.flying entry flying).last)

/-- Steps that tell nothing of the events that an adapter holds. -/
theorem Attributed.frame {marks : List Mark} (attributed : Attributed w)
    (history : w'.history = marks ++ w.history) (aside : ∀ mark ∈ marks, mark.aside = true)
    (adapters : Outlast w w') (turns : Remain w w') (each : Each Attributes w'.history) :
    Attributed w' := by
  have grows : w.history <:+ marks ++ w.history := List.suffix_append _ _
  refine ⟨fun cell e found => ?_, fun entry inside => ?_, each⟩ <;> rw [history]
  · obtain ⟨old, there, outbox, started⟩ := adapters cell e found
    obtain ⟨taken, asked, current⟩ := (attributed.adapters cell old there).grown grows
      (fun _ => cellOf_aside aside) (lastTurn_aside aside) (unread_aside aside)
    exact ⟨by rw [outbox]; exact taken, by rw [started]; exact asked, by rw [outbox]; exact current⟩
  · obtain ⟨old, before, thread, inCell, number, job⟩ := turns entry inside
    obtain ⟨asked, last, started⟩ := (attributed.flying old before).grown grows
      (cellOf_aside aside) (lastTurn_aside aside)
    rw [← inCell, ← number] at asked last
    rw [← thread, ← inCell, ← number, ← job] at started
    exact ⟨asked, last, started⟩

/-- Nothing is recorded. -/
theorem Attributed.silent (attributed : Attributed w) (history : w'.history = w.history)
    (adapters : Outlast w w') (turns : Remain w w') : Attributed w' := by
  refine attributed.frame (show w'.history = [] ++ w.history from history) ?_ adapters turns ?_
  · exact fun _ inside => by cases inside
  · rw [history]
    exact attributed.each

/-- One mark that tells nothing of the events that an adapter holds. -/
theorem Attributed.marked {mark : Mark} (attributed : Attributed w)
    (history : w'.history = mark :: w.history) (aside : mark.aside = true)
    (adapters : Outlast w w') (turns : Remain w w') (fits : Attributes w.history mark) :
    Attributed w' := by
  refine attributed.frame (show w'.history = [mark] ++ w.history from history) ?_ adapters turns ?_
  · exact fun _ inside => by rw [List.mem_singleton.mp inside]; exact aside
  · rw [history]
    exact ⟨attributed.each, fits⟩

/-- The engine of the cell reports on the turn that it was asked for last. -/
theorem Attributed.emitted {turn : Nat} {event : EngineEvent} (attributed : Attributed w)
    (emits : w.memory.scheduler.emits cell turn = true)
    (timely : Timely w.history (.emitted turn event)) :
    Attributed { w with
      memory := w.memory.schedule (·.updateEngine cell fun e =>
        { e with outbox := e.outbox ++ [(turn, event)] })
      history := .emitted turn event :: w.history } := by
  have grows : w.history <:+ Mark.emitted turn event :: w.history := List.suffix_cons _ _
  obtain ⟨e, there, up⟩ := (Option.any_eq_true _ _).mp emits
  have reports := attributed.adapters cell e there
  have asked := reports.asked turn (of_decide_eq_true up).2
  constructor
  · intro other e' found
    have looked := engine_updateEngine.symm.trans found
    split at looked
    · rename_i named
      subst named
      rw [there] at looked
      cases looked
      constructor
      · simp [unread, asked]
      · exact reports.asked
      · intro event' held
        rcases List.mem_append.mp held with before | new
        · obtain ⟨last, emitted⟩ := reports.current event' before
          exact ⟨last, List.mem_cons_of_mem _ emitted⟩
        · rw [List.mem_singleton.mp new]
          exact ⟨timely other asked, List.mem_cons_self⟩
    · rename_i apart
      apply (attributed.adapters other e' looked).grown grows (fun _ => rfl) rfl
      have elsewhere : cellOf turn w.history ≠ some other := by
        rw [asked]
        exact fun same => apart (Option.some.inj same).symm
      simp [unread, elsewhere]
  · exact fun entry inside => (attributed.flying entry inside).grown grows rfl rfl
  · exact ⟨attributed.each, trivial⟩

theorem polls_cons {number : Nat} {event : Nat × EngineEvent} {rest : List (Nat × EngineEvent)} :
    polls number (event :: rest) ++ history =
      polls number rest ++ .polled number event.1 event.2 :: history := by simp [polls]

/-- After a poll that finds events, the adapter holds none. -/
theorem unread_polls {number : Nat} {events : List (Nat × EngineEvent)} :
    unread cell (polls number events ++ history) =
      if cellOf number history = some cell ∧ events ≠ [] then false else unread cell history := by
  induction events generalizing history with
  | nil => simp [polls]
  | cons event rest ih =>
    rw [polls_cons, ih]
    by_cases named : cellOf number history = some cell
    · simp [cellOf, unread, named]
    · simp [cellOf, unread, named]

theorem attributes_polls {number : Nat} {events : List (Nat × EngineEvent)}
    (each : Each Attributes history)
    (own : ∀ event ∈ events, event.1 = number ∧ Mark.emitted event.1 event.2 ∈ history) :
    Each Attributes (polls number events ++ history) := by
  induction events generalizing history with
  | nil => exact each
  | cons event rest ih =>
    rw [polls_cons]
    apply ih
    · exact ⟨each, own event List.mem_cons_self⟩
    · intro other inside
      obtain ⟨same, emitted⟩ := own other (List.mem_cons_of_mem _ inside)
      exact ⟨same, List.mem_cons_of_mem _ emitted⟩

/-- The events of the turn's cell are taken, all of them emitted for the turn. -/
theorem Attributed.polled {id : String} {turn : InFlightTurn} (attributed : Attributed w)
    (flying : w.memory.scheduler.turn id = some turn) :
    Attributed ((poll turn).exec w).2 := by
  have inside : (id, turn) ∈ w.memory.scheduler.inFlight := mem_of_lookup flying
  have flies := attributed.flying (id, turn) inside
  have step : Statement .main w ((poll turn).exec w).2 := .polled id turn rfl flying
  have grows := step.grows.history
  have cells : ∀ number, cellOf number ((poll turn).exec w).2.history = cellOf number w.history :=
    fun _ => poll_unseen (fun _ _ _ _ => rfl) turn w
  have lasts : ∀ cell, lastTurn cell ((poll turn).exec w).2.history = lastTurn cell w.history :=
    fun _ => poll_unseen (fun _ _ _ _ => rfl) turn w
  cases there : w.memory.scheduler.engine turn.cell with
  | none =>
    simp only [poll, Action.exec_step, there]
    exact attributed
  | some e =>
    have reports := attributed.adapters turn.cell e there
    have history : ((poll turn).exec w).2.history = polls turn.turn e.outbox ++ w.history := by
      simp [poll, there, polls]
    have scheduler : ((poll turn).exec w).2.memory.scheduler =
        w.memory.scheduler.updateEngine turn.cell fun e => { e with outbox := [] } := by
      simp [poll, there, Memory.schedule]
    constructor
    · intro other e' found
      rw [scheduler, engine_updateEngine] at found
      split at found
      · rename_i named
        subst named
        rw [there] at found
        cases found
        constructor
        · rw [history, unread_polls]
          by_cases empty : e.outbox = []
          · simp [empty, reports.holds]
          · simp [empty, flies.asked]
        · intro number asked
          rw [cells]
          exact reports.asked number asked
        · exact fun _ held => by cases held
      · rename_i apart
        apply (attributed.adapters other e' found).grown grows cells (lasts other)
        have elsewhere : cellOf turn.turn w.history ≠ some other := by
          rw [flies.asked]
          exact fun same => apart (Option.some.inj same).symm
        rw [history, unread_polls, if_neg fun both => elsewhere both.1]
    · rw [scheduler]
      exact fun entry inside => (attributed.flying entry inside).grown grows (cells _) (lasts _)
    · rw [history]
      apply attributes_polls attributed.each
      intro event held
      exact ⟨attributed.own inside there held, (reports.current event held).2⟩

/-- The next turn of the cell is started when the adapter holds no events. -/
theorem Attributed.launched {job : CellJob} {nowNanos : Nat} {ok : Bool}
    (attributed : Attributed w) (clear : Clear cell w)
    (taken : unread cell w.history = false) :
    Attributed ((launchTurn cell job.crewdThreadId job.jobId nowNanos ok).exec w).2 := by
  let context := (w.memory.scheduler.engine cell).bind (·.engineThreadId)
  let mark := Mark.started job.jobId job.crewdThreadId cell context w.history.length ok
  have grows : w.history <:+ mark :: w.history := List.suffix_cons _ _
  have here : cellOf w.history.length (mark :: w.history) = some cell := by simp [mark, cellOf]
  have last : lastTurn cell (mark :: w.history) = some w.history.length := by simp [mark, lastTurn]
  have known : ∀ {number other}, cellOf number w.history = some other →
      cellOf number (mark :: w.history) = some other := by
    intro number other found
    have before := cellOf_lt attributed.each found
    simp [mark, cellOf, before.ne', found]
  have lasts : ∀ {other}, cell ≠ other →
      lastTurn other (mark :: w.history) = lastTurn other w.history := by
    intro other apart
    simp [mark, lastTurn, apart]
  have engines : ∀ other, ((launchTurn cell job.crewdThreadId job.jobId nowNanos ok).exec
      w).2.memory.scheduler.engine other = (w.memory.scheduler.updateEngine cell fun e =>
        { e with started := w.history.length :: e.started }).engine other := by
    intro other
    cases ok <;> rfl
  constructor
  · intro other e' found
    rw [engines, engine_updateEngine] at found
    split at found
    · rename_i named
      subst named
      obtain ⟨e, there, rfl⟩ := Option.map_eq_some_iff.mp found
      have reports := attributed.adapters other e there
      have empty : e.outbox = [] := by simpa [taken] using reports.holds
      constructor
      · exact reports.holds
      · intro number asked
        rcases List.mem_cons.mp asked with rfl | before
        · exact here
        · exact known (reports.asked number before)
      · intro event held
        rw [empty] at held
        cases held
    · rename_i apart
      have reports := attributed.adapters other e' found
      constructor
      · exact reports.holds
      · exact fun number asked => known (reports.asked number asked)
      · intro event held
        obtain ⟨current, emitted⟩ := reports.current event held
        exact ⟨(lasts (Ne.symm apart)).trans current, List.mem_cons_of_mem _ emitted⟩
  · intro entry inside
    have kept : ∀ old ∈ w.memory.scheduler.inFlight, Flies (mark :: w.history) old.1 old.2 := by
      intro old before
      have flies := attributed.flying old before
      apply flies.grown grows
      · exact (known flies.asked).trans flies.asked.symm
      · exact lasts (clear old before).symm
    cases ok with
    | false => exact kept entry inside
    | true =>
      rcases mem_put.mp inside with rfl | ⟨before, _⟩
      · exact ⟨here, last, context, List.mem_cons_self⟩
      · exact kept entry before
  · exact ⟨attributed.each, rfl⟩

/-- A new adapter holds no events. -/
theorem Attributed.made {kind : EngineKind} {threadId : Option String} (attributed : Attributed w) :
    Attributed ((makeAdapter cell kind threadId).exec w).2 := by
  have grows : w.history <:+ ((makeAdapter cell kind threadId).exec w).2.history :=
    List.suffix_cons _ _
  constructor
  · intro other e found
    have looked := lookup_put.symm.trans found
    by_cases named : other = cell
    · subst named
      rw [if_pos rfl] at looked
      cases looked
      constructor
      · simp [makeAdapter, unread]
      · exact fun _ asked => by cases asked
      · exact fun _ held => by cases held
    · rw [if_neg named] at looked
      have apart : cell ≠ other := Ne.symm named
      apply (attributed.adapters other e looked).grown grows (fun _ => rfl) rfl
      simp only [makeAdapter, Action.exec_step, unread, if_neg apart]
  · exact fun entry inside => (attributed.flying entry inside).grown grows rfl rfl
  · exact ⟨attributed.each, trivial⟩

theorem Calm.attributed (step : Calm w w') (timely : Each Timely w'.history)
    (attributed : Attributed w) : Attributed w' := by
  have turns : Remain w w' := .same step.inFlight
  cases step with
  | quiet same => exact attributed.silent same.history (.same (by rw [same.memory])) turns
  | journal _ _ _ _ | moved _ _ _ _ _ _ _ | recorded _ _ _ | cancelled _ _ _ =>
    exact attributed.marked rfl rfl (.same rfl) turns trivial
  | stopped cell =>
    exact attributed.marked rfl rfl (Survive.stopped (fun _ => ⟨rfl, rfl⟩) rfl) turns trivial
  | died cell =>
    have kept : Outlast w { w with
        memory := w.memory.schedule (·.updateEngine cell fun e => { e with up := false })
        history := .died cell (idle cell w) :: w.history } :=
      Survive.updated (f := fun e => { e with up := false }) (fun _ => ⟨rfl, rfl⟩) rfl
        fun _ => ⟨rfl, rfl⟩
    exact attributed.marked rfl rfl kept turns trivial
  | adapted cell f keeps _ => exact attributed.silent rfl (.updated rfl keeps) turns
  | emitted cell turn event emits => exact attributed.emitted emits timely.2
  | _ => exact attributed.silent rfl (.same rfl) turns

theorem Statement.attributed (step : Statement self w w') (timely : Each Timely w'.history)
    (attributed : Attributed w) : Attributed w' := by
  cases step with
  | calm step => exact step.attributed timely attributed
  | polled threadId turn _ flying => exact attributed.polled flying
  | applied turn tag event _ polled =>
    exact attributed.marked rfl rfl (.same rfl) (.same rfl)
      (attributes_of_polled attributed.each polled)
  | leased _ _ _ _ _ _ | begun _ _ _ _ | running _ _ _ _ _ _ _ _ _ _ | finished _ _ _ _
  | requeued _ _ _ =>
    exact attributed.marked rfl rfl (.same rfl) (.same rfl) trivial
  | launched job cell nowNanos ok _ startable _ _ _ =>
    exact attributed.launched startable.clear timely.2
  | made cell kind threadId _ _ _ => exact attributed.made
  | attached thread cell f _ _ _ resumes =>
    exact attributed.marked rfl rfl (.updated rfl resumes.1) (.same rfl) trivial
  | persisted _ _ _ _ _ _ => exact attributed.silent rfl (.same rfl) (.same rfl)
  | updatedTurn threadId f _ keeps =>
    refine attributed.silent rfl (.same rfl) fun entry inside => ?_
    obtain ⟨old, before, rfl⟩ := mem_alter.mp inside
    refine ⟨old, before, ?_⟩
    split
    · exact ⟨rfl, keeps old.2⟩
    · exact ⟨rfl, rfl, rfl, rfl⟩
  | landed threadId _ _ =>
    exact attributed.silent rfl (.same rfl) (.fewer fun entry inside => (mem_without.mp inside).1)
  | dropped cell _ _ =>
    exact attributed.silent rfl (.same rfl) (.fewer fun entry inside => (List.mem_filter.mp inside).1)
  | overdue threadId _ =>
    revert timely
    simp only [takeTurn, Action.exec_step]
    split
    · exact fun _ => attributed
    · intro timely
      exact attributed.marked rfl rfl (.same rfl)
        (.fewer fun entry inside => (mem_without.mp inside).1) trivial
  | restarted acl _ =>
    refine ⟨fun _ _ found => ?_, fun _ inside => ?_, attributed.each, trivial⟩
    · cases found
    · cases inside

/-- No engine but that of the cell was asked for the turn. -/
theorem Attributed.asked_on {entry : String × InFlightTurn} {e : Engine} (attributed : Attributed w)
    (flying : entry ∈ w.memory.scheduler.inFlight)
    (there : w.memory.scheduler.engine cell = some e) (started : entry.2.turn ∈ e.started) :
    entry.2.cell = cell := by
  have asked := (attributed.adapters cell e there).asked _ started
  exact Option.some.inj ((attributed.flying entry flying).asked.symm.trans asked)

/-- Turns in flight on one cell have one number. -/
theorem Attributed.one_turn {entry entry' : String × InFlightTurn} (attributed : Attributed w)
    (flying : entry ∈ w.memory.scheduler.inFlight)
    (flying' : entry' ∈ w.memory.scheduler.inFlight) :
    entry.2.cell = entry'.2.cell ↔ entry.2.turn = entry'.2.turn := by
  have flies := attributed.flying entry flying
  have flies' := attributed.flying entry' flying'
  constructor
  · intro same
    have last := flies.last
    rw [same] at last
    exact Option.some.inj (last.symm.trans flies'.last)
  · intro same
    have asked := flies.asked
    rw [same] at asked
    exact Option.some.inj (asked.symm.trans flies'.asked)

end Adapters
end Crewd.Fabric
