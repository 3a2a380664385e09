import Crewd.Fabric.Attribution
import Crewd.Fabric.Draining
import Crewd.Fabric.Queue

/-! The events of a turn, from its engine to the records. What an engine reports on a turn in
flight was taken or is held by its adapter, and of a turn that is over all was taken, up to
its end, where no adapter is stopped and no turn given up with events unread. -/
namespace Crewd.Fabric
open Autocommit Concurrent Table History

variable {cell : String} {self : Actor} {w w' : World}

section Tally
variable {history marks : List Mark} {mark : Mark} {turn : Nat}

/-- The turn was given up for its time. -/
def givenUp (turn : Nat) (history : List Mark) : Bool := history.any fun
  | .timedOut _ number _ _ => number = turn
  | _ => false

/-- What the engine has reported on the turn since the daemon started, until the turn was
given up. -/
def emittedFor (turn : Nat) : List Mark → List EngineEvent
  | [] => []
  | .restarted :: _ => []
  | .emitted number event :: earlier =>
    if number = turn ∧ givenUp turn earlier = false then emittedFor turn earlier ++ [event]
    else emittedFor turn earlier
  | _ :: earlier => emittedFor turn earlier

/-- The events that the adapter of the cell holds. -/
def heldOn (cell : String) (w : World) : List EngineEvent :=
  ((w.memory.scheduler.engine cell).map fun e => e.outbox.map (·.2)).getD []

/-- What waits for a turn in flight. -/
def heldFor (turn : Nat) (w : World) : List EngineEvent :=
  match w.memory.scheduler.inFlight.find? (·.2.turn = turn) with
  | some entry => heldOn entry.2.cell w
  | none => []

/-- No adapter is stopped and no turn given up when events are unread, and no statement
fails in a section that applies an event before the end of its turn. -/
def Heeds (earlier : List Mark) : Mark → Prop
  | .stopped cell => unread cell earlier = false
  | .timedOut _ _ unread _ => unread = 0
  | .applied _ _ event failing => failing = true → event.terminal = true
  | _ => True

instance : ∀ (earlier : List Mark) (mark : Mark), Decidable (Heeds earlier mark)
  | earlier, .stopped cell => inferInstanceAs (Decidable (unread cell earlier = false))
  | _, .timedOut _ _ unread _ => inferInstanceAs (Decidable (unread = 0))
  | _, .applied _ _ event failing => inferInstanceAs (Decidable (failing = true → event.terminal = true))
  | _, .wrote .. | _, .made .. | _, .attached .. | _, .started .. | _, .requeued .. | _, .emitted ..
  | _, .polled .. | _, .died .. | _, .journaled .. | _, .moved .. | _, .spawned ..
  | _, .restarted => instDecidableTrue

theorem Heeds.unbroken {earlier : List Mark} {mark : Mark} (heeds : Heeds earlier mark) :
    Unbroken earlier mark := by
  cases mark with
  | applied _ _ _ _ => exact heeds
  | _ => trivial

/-- What tells of the events of the turn. -/
def Mark.about (turn : Nat) : Mark → Bool
  | .polled number _ _ | .emitted number _ | .timedOut _ number _ _ => number = turn
  | _ => false

/-- Marks that leave what was reported and taken for every turn. -/
def Mark.unheard : Mark → Bool
  | .polled .. | .emitted .. | .timedOut .. | .restarted => false
  | _ => true

theorem about_of_unheard (unheard : mark.unheard = true) : mark.about turn = false := by
  cases mark with
  | polled _ _ _ | emitted _ _ | timedOut _ _ _ _ => cases unheard
  | _ => rfl

/-- The turn was taken up by an engine. -/
def Ran (turn : Nat) (history : List Mark) : Prop :=
  ∃ jobId id cell context, Mark.started jobId id cell context turn true ∈ history

/-- All that was reported on a turn in flight was taken, or is held. -/
structure Aloft (turn : InFlightTurn) (w : World) : Prop where
  reported : emittedFor turn.turn w.history = takenFor turn.turn w.history ++ heldOn turn.cell w
  shown : ∀ tag event, Mark.polled turn.turn tag event ∈ w.history →
    event ∈ takenFor turn.turn w.history
  kept : givenUp turn.turn w.history = false

/-- All that was reported on the turn, up to its end, was taken, and nothing is to come. -/
structure Past (turn : Nat) (w : World) : Prop where
  even : upToEnd (takenFor turn w.history) = upToEnd (emittedFor turn w.history)
  closed : (∃ event ∈ takenFor turn w.history, event.terminal = true) ∨
    givenUp turn w.history = true ∨
    ∀ cell e, w.memory.scheduler.engine cell = some e → turn ∉ e.started

structure Tallied (w : World) : Prop where
  fresh : ∀ mark ∈ w.history, ∀ turn, mark.about turn = true → turn < w.history.length
  flying : ∀ entry ∈ w.memory.scheduler.inFlight, Aloft entry.2 w
  past : ∀ turn, Ran turn w.history →
    (∀ entry ∈ w.memory.scheduler.inFlight, entry.2.turn ≠ turn) → Past turn w

/-- A turn that no mark tells of. -/
theorem untold (silent : ∀ mark ∈ history, mark.about turn = false) :
    takenFor turn history = [] ∧ emittedFor turn history = [] ∧ givenUp turn history = false := by
  induction history with
  | nil => exact ⟨rfl, rfl, rfl⟩
  | cons mark earlier ih =>
    obtain ⟨taken, emitted, given⟩ := ih fun other inside => silent other (List.mem_cons_of_mem _ inside)
    have first := silent mark List.mem_cons_self
    cases mark with
    | polled number tag event =>
      have apart : number ≠ turn := by simpa [Mark.about] using first
      exact ⟨by simp [takenFor, apart, taken], emitted, given⟩
    | emitted number event =>
      have apart : number ≠ turn := by simpa [Mark.about] using first
      exact ⟨taken, by simp [emittedFor, apart, emitted], given⟩
    | timedOut cell number unread up =>
      have apart : number ≠ turn := by simpa [Mark.about] using first
      exact ⟨taken, emitted, by simpa [givenUp, apart] using given⟩
    | restarted => exact ⟨rfl, rfl, given⟩
    | _ => exact ⟨taken, emitted, given⟩

theorem heard_aside (turn : Nat) (history : List Mark)
    (aside : ∀ mark ∈ marks, mark.unheard = true) :
    takenFor turn (marks ++ history) = takenFor turn history ∧
      emittedFor turn (marks ++ history) = emittedFor turn history ∧
      givenUp turn (marks ++ history) = givenUp turn history := by
  induction marks with
  | nil => exact ⟨rfl, rfl, rfl⟩
  | cons mark rest ih =>
    obtain ⟨taken, emitted, given⟩ := ih fun other inside => aside other (List.mem_cons_of_mem _ inside)
    have first := aside mark List.mem_cons_self
    cases mark with
    | polled _ _ _ | emitted _ _ | timedOut _ _ _ _ | restarted => cases first
    | _ => exact ⟨taken, emitted, given⟩

/-- The numbers of the marks are below the number of the next turn. -/
theorem Tallied.fresher (tallied : Tallied w) (marks : List Mark)
    (history : w'.history = marks ++ w.history)
    (lower : ∀ mark ∈ marks, ∀ turn, mark.about turn = true → turn < w.history.length) :
    ∀ mark ∈ w'.history, ∀ turn, mark.about turn = true → turn < w'.history.length := by
  intro mark inside turn about
  have longer : w.history.length ≤ w'.history.length := by simp [history]
  rw [history] at inside
  rcases List.mem_append.mp inside with new | old
  · exact (lower mark new turn about).trans_le longer
  · exact (tallied.fresh mark old turn about).trans_le longer

theorem Aloft.grow {entry : InFlightTurn} (aloft : Aloft entry w)
    (history : w'.history = marks ++ w.history) (aside : ∀ mark ∈ marks, mark.unheard = true)
    (held : heldOn entry.cell w' = heldOn entry.cell w) : Aloft entry w' := by
  obtain ⟨taken, emitted, given⟩ := heard_aside entry.turn w.history aside
  constructor
  · rw [history, taken, emitted, held]
    exact aloft.reported
  · rw [history, taken]
    intro tag event polled
    rcases List.mem_append.mp polled with new | old
    · cases aside _ new
    · exact aloft.shown tag event old
  · rw [history, given]
    exact aloft.kept

theorem Past.grow (past : Past turn w) (history : w'.history = marks ++ w.history)
    (aside : ∀ mark ∈ marks, mark.unheard = true)
    (asked : ∀ cell e', w'.memory.scheduler.engine cell = some e' → turn ∈ e'.started →
      ∃ e, w.memory.scheduler.engine cell = some e ∧ turn ∈ e.started) : Past turn w' := by
  obtain ⟨taken, emitted, given⟩ := heard_aside turn w.history aside
  constructor
  · rw [history, taken, emitted]
    exact past.even
  · rw [history, taken, given]
    refine past.closed.imp_right (Or.imp_right fun unasked cell e' there started => ?_)
    obtain ⟨e, before, was⟩ := asked cell e' there started
    exact unasked cell e before was

theorem Ran.lt (ran : Ran turn history) (each : Each Attributes history) : turn < history.length := by
  obtain ⟨jobId, id, inCell, context, started⟩ := ran
  obtain ⟨later, before, rfl⟩ := List.append_of_mem started
  have number : turn = before.length := each.at_mark
  simp only [List.length_append, List.length_cons]
  omega

theorem ran_of_marks (marks : List Mark) (history : w'.history = marks ++ w.history)
    (aside : ∀ mark ∈ marks, mark.starts = false) (ran : Ran turn w'.history) :
    Ran turn w.history := by
  obtain ⟨jobId, id, cell, context, started⟩ := ran
  rw [history] at started
  rcases List.mem_append.mp started with new | old
  · cases aside _ new
  · exact ⟨jobId, id, cell, context, old⟩

/-- Steps that take and report nothing; of the turns in flight those may leave of which all
was taken. -/
theorem Tallied.frame (tallied : Tallied w) (marks : List Mark)
    (history : w'.history = marks ++ w.history)
    (aside : ∀ mark ∈ marks, mark.unheard = true ∧ mark.starts = false)
    (asked : ∀ cell e' turn, w'.memory.scheduler.engine cell = some e' → turn ∈ e'.started →
      ∃ e, w.memory.scheduler.engine cell = some e ∧ turn ∈ e.started)
    (held : ∀ entry ∈ w.memory.scheduler.inFlight,
      heldOn entry.2.cell w' = heldOn entry.2.cell w)
    (turns : ∀ entry ∈ w'.memory.scheduler.inFlight, ∃ old ∈ w.memory.scheduler.inFlight,
      entry.2.cell = old.2.cell ∧ entry.2.turn = old.2.turn)
    (leave : ∀ entry ∈ w.memory.scheduler.inFlight,
      (∃ entry' ∈ w'.memory.scheduler.inFlight, entry'.2.turn = entry.2.turn) ∨
        Past entry.2.turn w) : Tallied w' := by
  have unheard : ∀ mark ∈ marks, mark.unheard = true := fun mark inside => (aside mark inside).1
  constructor
  · apply tallied.fresher _ history
    intro mark inside turn about
    rw [about_of_unheard (unheard mark inside)] at about
    cases about
  · intro entry inside
    obtain ⟨old, before, cell, turn⟩ := turns entry inside
    have aloft := (tallied.flying old before).grow history unheard (held old before)
    exact ⟨by rw [cell, turn]; exact aloft.reported, by rw [turn]; exact aloft.shown,
      by rw [turn]; exact aloft.kept⟩
  · intro turn ran landed
    have before : Past turn w := by
      have ran' := ran_of_marks _ history (fun mark inside => (aside mark inside).2) ran
      by_cases flew : ∃ entry ∈ w.memory.scheduler.inFlight, entry.2.turn = turn
      · obtain ⟨entry, inside, rfl⟩ := flew
        rcases leave entry inside with ⟨entry', still, same⟩ | past
        · exact absurd same (landed entry' still)
        · exact past
      · exact tallied.past turn ran' fun entry inside same => flew ⟨entry, inside, same⟩
    exact before.grow history unheard fun cell e' => asked cell e' turn

/-- The same for turns in flight that are left alone, and adapters that hold what they did. -/
theorem Tallied.still (tallied : Tallied w) (marks : List Mark)
    (history : w'.history = marks ++ w.history)
    (aside : ∀ mark ∈ marks, mark.unheard = true ∧ mark.starts = false)
    (engines : w'.memory.scheduler.engines = w.memory.scheduler.engines)
    (inFlight : w'.memory.scheduler.inFlight = w.memory.scheduler.inFlight) : Tallied w' := by
  have same : ∀ cell, w'.memory.scheduler.engine cell = w.memory.scheduler.engine cell := by
    intro cell
    rw [Scheduler.engine, engines]
    rfl
  apply tallied.frame marks history aside
  · intro cell e' turn there started
    rw [same] at there
    exact ⟨e', there, started⟩
  · intro entry _
    rw [heldOn, heldOn, same]
  · rw [inFlight]
    exact fun entry inside => ⟨entry, inside, rfl, rfl⟩
  · rw [inFlight]
    exact fun entry inside => .inl ⟨entry, inside, rfl⟩

theorem one_aside (unheard : mark.unheard = true) (starts : mark.starts = false) :
    ∀ other ∈ [mark], other.unheard = true ∧ other.starts = false :=
  List.forall_mem_singleton.mpr ⟨unheard, starts⟩

theorem none_aside : ∀ mark ∈ ([] : List Mark), mark.unheard = true ∧ mark.starts = false :=
  List.forall_mem_nil _

/-- An update of the adapters that leaves what they hold and were asked for. -/
theorem Tallied.adapted {f : Engine → Engine} (tallied : Tallied w)
    (marks : List Mark) (history : w'.history = marks ++ w.history)
    (aside : ∀ mark ∈ marks, mark.unheard = true ∧ mark.starts = false)
    (engines : w'.memory.scheduler.engines = alter cell f w.memory.scheduler.engines)
    (inFlight : w'.memory.scheduler.inFlight = w.memory.scheduler.inFlight)
    (keeps : ∀ e, (f e).outbox = e.outbox ∧ (f e).started = e.started) : Tallied w' := by
  have looked : ∀ other, w'.memory.scheduler.engine other =
      if other = cell then (w.memory.scheduler.engine other).map f
      else w.memory.scheduler.engine other := by
    intro other
    rw [Scheduler.engine, engines]
    exact lookup_alter
  apply tallied.frame marks history aside
  · intro other e' turn there started
    rw [looked] at there
    split at there
    · obtain ⟨e, before, rfl⟩ := Option.map_eq_some_iff.mp there
      rw [(keeps e).2] at started
      exact ⟨e, before, started⟩
    · exact ⟨e', there, started⟩
  · intro entry _
    rw [heldOn, heldOn, looked]
    split
    · rw [Option.map_map]
      congr 2
      funext e
      exact congrArg (List.map _) (keeps e).1
    · rfl
  · rw [inFlight]
    exact fun entry inside => ⟨entry, inside, rfl, rfl⟩
  · rw [inFlight]
    exact fun entry inside => .inl ⟨entry, inside, rfl⟩

/-- Nothing is held on a cell whose adapter has no unread events. -/
theorem Attributed.nothing_held (attributed : Attributed w) (clear : unread cell w.history = false) :
    heldOn cell w = [] := by
  cases there : w.memory.scheduler.engine cell with
  | none => simp [heldOn, there]
  | some e =>
    have holds := (attributed.adapters cell e there).holds
    have empty : e.outbox = [] := by simpa [clear] using holds
    simp [heldOn, there, empty]

/-- All was taken for a turn that is over. -/
theorem Tallied.past_over {entry : String × InFlightTurn} (tallied : Tallied w)
    (attributed : Attributed w) (flying : entry ∈ w.memory.scheduler.inFlight)
    (ended : Over entry.2 w) : Past entry.2.turn w := by
  have aloft := tallied.flying entry flying
  rcases ended with gone | ⟨tag, event, terminal, polled⟩
  · constructor
    · rw [aloft.reported]
      simp [heldOn, gone]
    · refine .inr (.inr fun cell e there started => ?_)
      have same := attributed.asked_on flying there started
      subst same
      rw [there] at gone
      cases gone
  · have shown := aloft.shown tag event polled
    constructor
    · rw [aloft.reported, upToEnd_of_ended ⟨event, shown, terminal⟩]
    · exact .inl ⟨event, shown, terminal⟩

section Reports
variable {event : EngineEvent} {e : Engine} {n : Nat}

/-- The world after the engine of the cell has reported the event. -/
def afterReport (cell : String) (turn : Nat) (event : EngineEvent) (w : World) : World := { w with
  memory := w.memory.schedule (·.updateEngine cell fun e =>
    { e with outbox := e.outbox ++ [(turn, event)] })
  history := .emitted turn event :: w.history }

theorem heldOn_afterReport {other : String} (there : w.memory.scheduler.engine cell = some e) :
    heldOn other (afterReport cell turn event w) =
      if other = cell then heldOn other w ++ [event] else heldOn other w := by
  simp only [heldOn, afterReport, Memory.schedule, engine_updateEngine]
  split
  · rename_i same
    subst same
    simp [there]
  · rfl

theorem emittedFor_afterReport : emittedFor n (afterReport cell turn event w).history =
    if turn = n ∧ givenUp n w.history = false then emittedFor n w.history ++ [event]
    else emittedFor n w.history := rfl

/-- The event is held for the turn that it was reported on. -/
theorem Aloft.reported_on {entry : String × InFlightTurn} (aloft : Aloft entry.2 w)
    (attributed : Attributed w) (flying : entry ∈ w.memory.scheduler.inFlight)
    (there : w.memory.scheduler.engine cell = some e)
    (asked : cellOf turn w.history = some cell) (last : lastTurn cell w.history = some turn) :
    Aloft entry.2 (afterReport cell turn event w) := by
  have flies := attributed.flying entry flying
  have own : turn = entry.2.turn ↔ entry.2.cell = cell := by
    constructor
    · rintro rfl
      exact Option.some.inj (flies.asked.symm.trans asked)
    · rintro rfl
      exact Option.some.inj (last.symm.trans flies.last)
  constructor
  · rw [emittedFor_afterReport, heldOn_afterReport there]
    by_cases same : entry.2.cell = cell
    · rw [if_pos ⟨own.mpr same, aloft.kept⟩, if_pos same, aloft.reported, List.append_assoc]
      rfl
    · rw [if_neg fun both => same (own.mp both.1), if_neg same]
      exact aloft.reported
  · intro tag other polled
    rcases List.mem_cons.mp polled with new | old
    · cases new
    · exact aloft.shown tag other old
  · exact aloft.kept

/-- What is reported on a turn that is over does not count. -/
theorem Past.reported_on (past : Past n w) (there : w.memory.scheduler.engine cell = some e)
    (asked : turn ∈ e.started) : Past n (afterReport cell turn event w) := by
  have unasked : (∀ other e, w.memory.scheduler.engine other = some e → n ∉ e.started) →
      ∀ other e, (afterReport cell turn event w).memory.scheduler.engine other = some e →
        n ∉ e.started := by
    intro none other e' found
    simp only [afterReport, Memory.schedule, engine_updateEngine] at found
    split at found
    · obtain ⟨old, before, rfl⟩ := Option.map_eq_some_iff.mp found
      exact none other old before
    · exact none other e' found
  refine ⟨?_, past.closed.imp_right (Or.imp_right unasked)⟩
  rw [emittedFor_afterReport]
  split
  · rename_i own
    obtain ⟨rfl, kept⟩ := own
    rcases past.closed with ended | given | none
    · obtain ⟨last, inside, terminal⟩ := ended_upToEnd ended
      rw [past.even] at inside
      rw [upToEnd_of_ended ⟨last, mem_of_upToEnd inside, terminal⟩]
      exact past.even
    · rw [kept] at given
      cases given
    · exact absurd asked (none cell e there)
  · exact past.even

/-- The engine of the cell reports on the turn that it was asked for last. -/
theorem Tallied.emitted (tallied : Tallied w) (attributed : Attributed w)
    (emits : w.memory.scheduler.emits cell turn = true)
    (timely : Timely w.history (.emitted turn event)) : Tallied (afterReport cell turn event w) := by
  obtain ⟨e, there, up⟩ := (Option.any_eq_true _ _).mp emits
  have started : turn ∈ e.started := (of_decide_eq_true up).2
  have asked := (attributed.adapters cell e there).asked turn started
  constructor
  · apply tallied.fresher [.emitted turn event] rfl
    intro mark inside number about
    rw [List.mem_singleton.mp inside] at about
    obtain rfl : turn = number := of_decide_eq_true about
    exact cellOf_lt attributed.each asked
  · intro entry flying
    have aloft := tallied.flying entry flying
    exact aloft.reported_on attributed flying there asked (timely cell asked)
  · intro number ran landed
    have before := ran_of_marks [.emitted turn event] rfl (List.forall_mem_singleton.mpr rfl) ran
    exact (tallied.past number before landed).reported_on there started

end Reports

section Polls
variable {number n : Nat} {events : List (Nat × EngineEvent)}

theorem emittedFor_polls : emittedFor n (polls number events ++ history) = emittedFor n history ∧
    givenUp n (polls number events ++ history) = givenUp n history := by
  induction events generalizing history with
  | nil => exact ⟨rfl, rfl⟩
  | cons event rest ih =>
    rw [polls_cons]
    exact ih

theorem mem_polls {mark : Mark} (inside : mark ∈ polls number events) :
    ∃ event ∈ events, mark = .polled number event.1 event.2 := by
  obtain ⟨event, held, same⟩ := List.mem_map.mp (List.mem_reverse.mp inside)
  exact ⟨event, held, same.symm⟩

variable {turn : InFlightTurn} {e : Engine}

theorem history_poll (there : w.memory.scheduler.engine turn.cell = some e) :
    ((poll turn).exec w).2.history = polls turn.turn e.outbox ++ w.history := by
  simp [poll, there, polls]

theorem engine_poll (there : w.memory.scheduler.engine turn.cell = some e) (other : String) :
    ((poll turn).exec w).2.memory.scheduler.engine other =
      if other = turn.cell then (w.memory.scheduler.engine other).map fun e => { e with outbox := [] }
      else w.memory.scheduler.engine other := by
  simp [poll, there, Memory.schedule, engine_updateEngine]

/-- What was held for the turn has been taken. -/
theorem Aloft.polled {other : InFlightTurn} (aloft : Aloft other w)
    (there : w.memory.scheduler.engine turn.cell = some e)
    (own : turn.cell = other.cell ↔ turn.turn = other.turn) : Aloft other ((poll turn).exec w).2 := by
  have history := history_poll there
  have held : heldOn other.cell ((poll turn).exec w).2 =
      if turn.turn = other.turn then [] else heldOn other.cell w := by
    by_cases same : other.cell = turn.cell
    · rw [if_pos (own.mp same.symm), heldOn, engine_poll there, if_pos same, same, there]
      rfl
    · rw [if_neg fun one => same (own.mpr one).symm, heldOn, engine_poll there, if_neg same]
      rfl
  constructor
  · rw [history, emittedFor_polls.1, takenFor_polls, held, aloft.reported]
    split
    · rename_i same
      have all : heldOn other.cell w = e.outbox.map (·.2) := by
        rw [heldOn, ← own.mpr same, there]
        rfl
      rw [all, List.append_nil]
    · simp
  · intro tag event polled
    rw [history] at polled ⊢
    rw [takenFor_polls]
    rcases List.mem_append.mp polled with new | old
    · obtain ⟨event', held', same⟩ := mem_polls new
      obtain ⟨number, _, rfl⟩ := Mark.polled.inj same
      rw [if_pos number.symm]
      exact List.mem_append_right _ (List.mem_map_of_mem held')
    · exact List.mem_append_left _ (aloft.shown tag event old)
  · rw [history, emittedFor_polls.2]
    exact aloft.kept

theorem Past.polled (past : Past n w) (there : w.memory.scheduler.engine turn.cell = some e)
    (aside : turn.turn ≠ n) : Past n ((poll turn).exec w).2 := by
  have history := history_poll there
  constructor
  · rw [history, emittedFor_polls.1, takenFor_polls, if_neg aside, List.append_nil]
    exact past.even
  · rw [history, emittedFor_polls.2, takenFor_polls, if_neg aside, List.append_nil]
    refine past.closed.imp_right (Or.imp_right fun unasked other e' found => ?_)
    rw [engine_poll there] at found
    split at found
    · obtain ⟨old, was, rfl⟩ := Option.map_eq_some_iff.mp found
      exact unasked other old was
    · exact unasked other e' found

/-- The events of the turn's cell are taken. -/
theorem Tallied.polled {threadId : String} (tallied : Tallied w) (attributed : Attributed w)
    (flying : w.memory.scheduler.turn threadId = some turn) :
    Tallied ((poll turn).exec w).2 := by
  have inside : (threadId, turn) ∈ w.memory.scheduler.inFlight := mem_of_lookup flying
  have flies := attributed.flying (threadId, turn) inside
  cases there : w.memory.scheduler.engine turn.cell with
  | none =>
    simp only [poll, Action.exec_step, there]
    exact tallied
  | some e =>
    have history := history_poll there
    constructor
    · apply tallied.fresher _ history
      intro mark new number about
      obtain ⟨event, held, rfl⟩ := mem_polls new
      obtain rfl : turn.turn = number := of_decide_eq_true about
      exact cellOf_lt attributed.each flies.asked
    · intro entry still
      rw [(poll_leaves turn w).2] at still
      exact (tallied.flying entry still).polled there (attributed.one_turn inside still)
    · intro n ran landed
      rw [(poll_leaves turn w).2] at landed
      have silent : ∀ mark ∈ polls turn.turn e.outbox, mark.starts = false := by
        intro mark new
        obtain ⟨_, _, rfl⟩ := mem_polls new
        rfl
      have before := tallied.past n (ran_of_marks _ history silent ran) landed
      exact before.polled there (landed (threadId, turn) inside)

end Polls

section Launches
variable {threadId jobId : String} {nowNanos : Nat} {ok : Bool}

theorem history_launchTurn : ((launchTurn cell threadId jobId nowNanos ok).exec w).2.history =
    [.started jobId threadId cell ((w.memory.scheduler.engine cell).bind (·.engineThreadId))
      w.history.length ok] ++ w.history := rfl

theorem engine_launchTurn (other : String) :
    ((launchTurn cell threadId jobId nowNanos ok).exec w).2.memory.scheduler.engine other =
      (w.memory.scheduler.updateEngine cell fun e =>
        { e with started := w.history.length :: e.started }).engine other := by
  cases ok <;> rfl

theorem heldOn_launchTurn (other : String) :
    heldOn other ((launchTurn cell threadId jobId nowNanos ok).exec w).2 = heldOn other w := by
  rw [heldOn, heldOn, engine_launchTurn, engine_updateEngine]
  split
  · rw [Option.map_map]
    rfl
  · rfl

/-- Nothing has been heard of a turn that is new. -/
theorem Tallied.takes_off {new : InFlightTurn} (tallied : Tallied w) (attributed : Attributed w)
    (clear : unread new.cell w.history = false) (number : new.turn = w.history.length)
    (history : w'.history = [mark] ++ w.history) (unheard : mark.unheard = true)
    (held : heldOn new.cell w' = heldOn new.cell w) : Aloft new w' := by
  have silent : ∀ earlier ∈ w.history, earlier.about new.turn = false := by
    intro earlier inside
    by_contra told
    have before := tallied.fresh earlier inside new.turn (Bool.eq_true_of_not_eq_false told)
    omega
  obtain ⟨untaken, unreported, kept⟩ := untold silent
  obtain ⟨taken, emitted, given⟩ :=
    heard_aside new.turn w.history (List.forall_mem_singleton.mpr unheard)
  constructor
  · rw [held, attributed.nothing_held clear, history, emitted, taken, untaken, unreported]
    rfl
  · intro tag event polled
    rw [history] at polled
    rcases List.mem_cons.mp polled with rfl | old
    · cases unheard
    · have told := silent _ old
      simp [Mark.about] at told
  · rw [history, given]
    exact kept

/-- The engine was asked for another turn. -/
theorem Past.launched (past : Past turn w) (earlier : turn ≠ w.history.length) :
    Past turn ((launchTurn cell threadId jobId nowNanos ok).exec w).2 := by
  apply past.grow history_launchTurn (List.forall_mem_singleton.mpr rfl)
  intro other e' found started
  rw [engine_launchTurn, engine_updateEngine] at found
  split at found
  · obtain ⟨e, there, rfl⟩ := Option.map_eq_some_iff.mp found
    rcases List.mem_cons.mp started with same | old
    · exact absurd same earlier
    · exact ⟨e, there, old⟩
  · exact ⟨e', found, started⟩

/-- The next turn of the cell is started when the adapter holds no events. -/
theorem Tallied.launched {job : CellJob} (tallied : Tallied w) (attributed : Attributed w)
    (inv : Inv w) (startable : Startable job cell w) (clear : unread cell w.history = false) :
    Tallied ((launchTurn cell job.crewdThreadId job.jobId nowNanos ok).exec w).2 := by
  have goes : ∀ entry ∈ w.memory.scheduler.inFlight, Aloft entry.2
      ((launchTurn cell job.crewdThreadId job.jobId nowNanos ok).exec w).2 :=
    fun entry inside => (tallied.flying entry inside).grow history_launchTurn
      (List.forall_mem_singleton.mpr rfl) (heldOn_launchTurn _)
  constructor
  · apply tallied.fresher _ history_launchTurn
    intro mark inside turn about
    rw [List.mem_singleton.mp inside] at about
    cases about
  · intro entry inside
    cases ok with
    | false => exact goes entry inside
    | true =>
      rcases mem_put.mp inside with rfl | ⟨before, _⟩
      · exact tallied.takes_off attributed clear rfl rfl rfl (heldOn_launchTurn _)
      · exact goes entry before
  · intro turn ran landed
    obtain ⟨before, earlier⟩ : Ran turn w.history ∧ turn ≠ w.history.length := by
      obtain ⟨jobId, id, inCell, context, started⟩ := ran
      rcases List.mem_cons.mp started with new | old
      · obtain ⟨rfl, rfl, rfl, _, rfl, rfl⟩ := Mark.started.inj new
        exact absurd rfl (landed _ (mem_put.mpr (.inl rfl)))
      · have ran : Ran turn w.history := ⟨jobId, id, inCell, context, old⟩
        exact ⟨ran, (ran.lt attributed.each).ne⟩
    have past : Past turn w := by
      apply tallied.past turn before
      intro entry inside
      apply landed entry
      cases ok with
      | false => exact inside
      | true => exact mem_put.mpr (.inr ⟨inside, startable.unflown inv inside⟩)
    exact past.launched earlier

end Launches

/-- A new adapter holds no events. -/
theorem Tallied.made {kind : EngineKind} {threadId : Option String} (tallied : Tallied w)
    (clear : Clear cell w) : Tallied ((makeAdapter cell kind threadId).exec w).2 := by
  have looked : ∀ other, other ≠ cell →
      ((makeAdapter cell kind threadId).exec w).2.memory.scheduler.engine other =
        w.memory.scheduler.engine other :=
    fun other apart => lookup_put.trans (if_neg apart)
  refine tallied.frame [_] rfl (one_aside rfl rfl) ?_ ?_ ?_ ?_
  · intro other e' turn found started
    by_cases named : other = cell
    · subst named
      have looked := lookup_put.symm.trans found
      rw [if_pos rfl] at looked
      cases looked
      cases started
    · exact ⟨e', (looked other named).symm.trans found, started⟩
  · intro entry flying
    rw [heldOn, heldOn, looked _ (clear entry flying)]
  · exact fun entry flying => ⟨entry, flying, rfl, rfl⟩
  · exact fun entry flying => .inl ⟨entry, flying, rfl⟩

/-- An adapter that is stopped holds no events. -/
theorem Tallied.stopped (tallied : Tallied w) (attributed : Attributed w)
    (clear : unread cell w.history = false) : Tallied { w with
      memory := w.memory.schedule (·.stop cell), history := .stopped cell :: w.history } := by
  refine tallied.frame [.stopped cell] rfl (one_aside rfl rfl) ?_ ?_ ?_ ?_
  · intro other e' turn found started
    have kept : Survive (fun e e' => e' = e) w { w with
        memory := w.memory.schedule (·.stop cell), history := .stopped cell :: w.history } :=
      Survive.stopped (fun _ => rfl) rfl
    obtain ⟨e, there, same⟩ := kept other e' found
    exact ⟨e, there, same ▸ started⟩
  · intro entry flying
    by_cases named : entry.2.cell = cell
    · rw [named, attributed.nothing_held clear]
      simp [heldOn, Memory.schedule, Scheduler.stop, Scheduler.engine, lookup_without]
    · simp only [heldOn, Memory.schedule, Scheduler.stop, Scheduler.engine]
      rw [lookup_without_of_ne named]
  · exact fun entry flying => ⟨entry, flying, rfl, rfl⟩
  · exact fun entry flying => .inl ⟨entry, flying, rfl⟩

/-- A turn is given up when its adapter holds no events. -/
theorem Tallied.overdue {threadId : String} (tallied : Tallied w) (attributed : Attributed w)
    (inv : Inv w) (apart : Apart w) (heeds : Each Heeds ((takeTurn threadId).exec w).2.history) :
    Tallied ((takeTurn threadId).exec w).2 := by
  revert heeds
  simp only [takeTurn, Action.exec_step]
  split
  · exact fun _ => tallied
  · rename_i turn found
    intro heeds
    have inside : (threadId, turn) ∈ w.memory.scheduler.inFlight := mem_of_lookup found
    have empty : heldOn turn.cell w = [] := by
      have unread : ((w.memory.scheduler.engine turn.cell).map (·.outbox.length)).getD 0 = 0 := heeds.2
      cases there : w.memory.scheduler.engine turn.cell with
      | none => simp [heldOn, there]
      | some e => simpa [heldOn, there] using unread
    have flies := attributed.flying (threadId, turn) inside
    have others : ∀ entry ∈ without threadId w.memory.scheduler.inFlight,
        entry.2.turn ≠ turn.turn := by
      intro entry still one
      obtain ⟨before, other⟩ := mem_without.mp still
      have elsewhere := apart.elsewhere before inside fun same => other (congrArg Prod.fst same)
      exact elsewhere ((attributed.one_turn before inside).mpr one)
    constructor
    · apply tallied.fresher [_] rfl
      intro mark new number about
      rw [List.mem_singleton.mp new] at about
      obtain rfl : turn.turn = number := of_decide_eq_true about
      exact cellOf_lt attributed.each flies.asked
    · intro entry still
      have aloft := tallied.flying entry (mem_without.mp still).1
      constructor
      · exact aloft.reported
      · intro tag event polled
        rcases List.mem_cons.mp polled with new | old
        · cases new
        · exact aloft.shown tag event old
      · simpa [givenUp, (others entry still).symm] using aloft.kept
    · intro number ran landed
      by_cases own : turn.turn = number
      · subst own
        have reported := (tallied.flying (threadId, turn) inside).reported
        rw [empty, List.append_nil] at reported
        constructor
        · exact congrArg upToEnd reported.symm
        · exact .inr (.inl (by simp [givenUp]))
      · have past : Past number w := by
          apply tallied.past number
          · exact ran_of_marks [_] rfl (List.forall_mem_singleton.mpr rfl) ran
          · intro entry flying
            by_cases named : entry.1 = threadId
            · have one := (lookup_of_mem inv.turnsOnce flying).symm
              rw [named] at one
              rw [Option.some.inj (one.trans found)]
              exact own
            · exact landed entry (mem_without.mpr ⟨flying, named⟩)
        refine ⟨past.even, past.closed.imp_right (Or.imp_left fun given => ?_)⟩
        simpa [givenUp, own] using given

/-- When the daemon starts no engine is asked for a turn. -/
theorem Tallied.restarted {acl : Acl} (tallied : Tallied w) :
    Tallied { w with memory := .new acl, history := .restarted :: w.history } := by
  constructor
  · apply tallied.fresher [.restarted] rfl
    intro mark new turn about
    rw [List.mem_singleton.mp new] at about
    cases about
  · exact fun _ flying => by cases flying
  · intro turn _ _
    exact ⟨rfl, .inr (.inr fun cell e found => by cases found)⟩

theorem Calm.tallied (step : Calm w w') (timely : Each Timely w'.history)
    (heeds : Each Heeds w'.history) (attributed : Attributed w) (tallied : Tallied w) :
    Tallied w' := by
  cases step with
  | quiet same =>
    exact tallied.still [] same.history none_aside (by rw [same.memory])
      (by rw [same.memory])
  | journal _ _ _ _ | moved _ _ _ _ _ _ _ | recorded _ _ _ | cancelled _ _ _ =>
    exact tallied.still [_] rfl (one_aside rfl rfl) rfl rfl
  | stopped cell => exact tallied.stopped attributed heeds.2
  | died cell =>
    exact tallied.adapted [_] (f := fun e => { e with up := false }) rfl
      (one_aside rfl rfl) rfl rfl fun _ => ⟨rfl, rfl⟩
  | adapted cell f keeps _ =>
    exact tallied.adapted [] rfl none_aside rfl rfl fun e => ⟨(keeps e).1, (keeps e).2.1⟩
  | emitted cell turn event emits => exact tallied.emitted attributed emits timely.2
  | _ => exact tallied.still [] rfl none_aside rfl rfl

/-- Adapters are left alone, and of the turns in flight those are left that are not over. -/
theorem Tallied.left (tallied : Tallied w) (attributed : Attributed w)
    (history : w'.history = w.history)
    (engines : w'.memory.scheduler.engines = w.memory.scheduler.engines)
    (turns : ∀ entry ∈ w'.memory.scheduler.inFlight, entry ∈ w.memory.scheduler.inFlight)
    (leave : ∀ entry ∈ w.memory.scheduler.inFlight,
      entry ∈ w'.memory.scheduler.inFlight ∨ Over entry.2 w) : Tallied w' := by
  have same : ∀ cell, w'.memory.scheduler.engine cell = w.memory.scheduler.engine cell := by
    intro cell
    rw [Scheduler.engine, engines]
    rfl
  refine tallied.frame [] history none_aside ?_ ?_ ?_ ?_
  · intro cell e' turn found started
    exact ⟨e', (same cell).symm.trans found, started⟩
  · intro entry _
    rw [heldOn, heldOn, same]
  · exact fun entry flying => ⟨entry, turns entry flying, rfl, rfl⟩
  · intro entry flying
    rcases leave entry flying with still | ended
    · exact .inl ⟨entry, still, rfl⟩
    · exact .inr (tallied.past_over attributed flying ended)

theorem Statement.tallied (step : Statement self w w') (good : Good w) (apart : Apart w)
    (timely : Each Timely w'.history) (heeds : Each Heeds w'.history)
    (attributed : Attributed w) (tallied : Tallied w) : Tallied w' := by
  cases step with
  | calm step => exact step.tallied timely heeds attributed tallied
  | polled threadId turn _ flying => exact tallied.polled attributed flying
  | applied _ _ _ _ _ | leased _ _ _ _ _ _ | begun _ _ _ _ | running _ _ _ _ _ _ _ _ _ _
  | finished _ _ _ _ | requeued _ _ _ =>
    exact tallied.still [_] rfl (one_aside rfl rfl) rfl rfl
  | launched job cell nowNanos ok _ startable _ _ _ =>
    exact tallied.launched attributed good.1 startable timely.2
  | made cell kind threadId _ _ clear => exact tallied.made clear
  | attached thread cell f _ _ _ resumes =>
    exact tallied.adapted [_] rfl (one_aside rfl rfl) rfl rfl
      fun e => ⟨(resumes.1 e).1, (resumes.1 e).2.1⟩
  | persisted _ _ _ _ _ _ => exact tallied.still [] rfl none_aside rfl rfl
  | updatedTurn threadId f _ keeps =>
    refine tallied.frame [] rfl none_aside ?_ (fun _ _ => rfl) ?_ ?_
    · exact fun cell e' turn found started => ⟨e', found, started⟩
    · intro entry flying
      obtain ⟨old, before, rfl⟩ := mem_alter.mp flying
      refine ⟨old, before, ?_⟩
      split
      · exact ⟨(keeps old.2).1, (keeps old.2).2.1⟩
      · exact ⟨rfl, rfl⟩
    · intro entry flying
      refine .inl ⟨_, mem_alter.mpr ⟨entry, flying, rfl⟩, ?_⟩
      split
      · exact (keeps entry.2).2.1
      · rfl
  | landed threadId _ ended =>
    refine tallied.left attributed rfl rfl (fun entry flying => (mem_without.mp flying).1) ?_
    intro entry flying
    by_cases named : entry.1 = threadId
    · subst named
      exact .inr (ended entry.2 flying)
    · exact .inl (mem_without.mpr ⟨flying, named⟩)
  | dropped cell _ gone =>
    refine tallied.left attributed rfl rfl (fun entry flying => (List.mem_filter.mp flying).1) ?_
    intro entry flying
    by_cases named : entry.2.cell = cell
    · exact .inr (.inl (named ▸ gone))
    · exact .inl (List.mem_filter.mpr ⟨flying, decide_eq_true named⟩)
  | overdue threadId _ => exact tallied.overdue attributed good.1 apart heeds
  | restarted acl _ => exact tallied.restarted

/-- What was reported on a turn, up to its end, was taken or waits for it. -/
theorem Tallied.taken (tallied : Tallied w) (ran : Ran turn w.history) :
    upToEnd (takenFor turn w.history ++ heldFor turn w) = upToEnd (emittedFor turn w.history) := by
  cases found : w.memory.scheduler.inFlight.find? (·.2.turn = turn) with
  | none =>
    have landed : ∀ entry ∈ w.memory.scheduler.inFlight, entry.2.turn ≠ turn := by
      simpa using found
    rw [heldFor, found]
    simpa using (tallied.past turn ran landed).even
  | some entry =>
    have own : entry.2.turn = turn := by simpa using List.find?_some found
    have reported := (tallied.flying entry (List.mem_of_find?_eq_some found)).reported
    rw [own] at reported
    rw [heldFor, found, reported]

end Tally
section Sample

end Sample
end Crewd.Fabric
