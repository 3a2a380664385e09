import Crewd.Fabric.Contexts
import Crewd.Fabric.Deeds

/-! The engines that turns are started on. A tick asks an adapter to run a turn only while
no other turn of its cell is in flight; whether its process is alive is looked at only for
turns in flight, so an engine that dies between two turns is kept and used again. -/
namespace Crewd.Fabric
open Autocommit Concurrent History Table

/-- No turn is started, and those in flight stay or leave. -/
structure Idles (w w' : World) : Prop where
  marks : ∀ mark ∈ w'.history, mark.starts = true → mark ∈ w.history
  lands : ∀ entry ∈ w'.memory.scheduler.inFlight,
    ∃ old ∈ w.memory.scheduler.inFlight, old.2.cell = entry.2.cell

/-- A turn that is started takes the adapter of its cell, on which nothing is in flight. -/
def Launches (w w' : World) : Prop := ∀ jobId threadId cell context turn ok,
  Mark.started jobId threadId cell context turn ok ∈ w'.history →
    Mark.started jobId threadId cell context turn ok ∈ w.history ∨
      (w.memory.scheduler.engine cell).isSome ∧ Clear cell w

variable {α β : Type} {cell : String} {w w' w'' : World}

namespace Idles

theorem same (history : w'.history = w.history)
    (inFlight : w'.memory.scheduler.inFlight = w.memory.scheduler.inFlight) : Idles w w' := by
  constructor
  · intro mark member _
    rwa [history] at member
  · intro entry inside
    rw [inFlight] at inside
    exact ⟨entry, inside, rfl⟩

/-- New marks that start no turn. -/
theorem marked {marks : List Mark} (mild : ∀ mark ∈ marks, mark.starts = false)
    (history : w'.history = marks ++ w.history)
    (lands : ∀ entry ∈ w'.memory.scheduler.inFlight,
      ∃ old ∈ w.memory.scheduler.inFlight, old.2.cell = entry.2.cell) : Idles w w' := by
  refine ⟨fun mark member starts => ?_, lands⟩
  rw [history] at member
  rcases List.mem_append.mp member with new | old
  · rw [mild mark new] at starts
    cases starts
  · exact old

theorem trans (first : Idles w w') (second : Idles w' w'') : Idles w w'' := by
  constructor
  · intro mark member starts
    exact first.marks mark (second.marks mark member starts) starts
  · intro entry inside
    obtain ⟨middle, inside', same⟩ := second.lands entry inside
    obtain ⟨old, before, same'⟩ := first.lands middle inside'
    exact ⟨old, before, same'.trans same⟩

theorem clear (idles : Idles w w') (clear : Clear cell w) : Clear cell w' := by
  intro entry inside
  obtain ⟨old, before, same⟩ := idles.lands entry inside
  rw [← same]
  exact clear old before

theorem launches (idles : Idles w w') : Launches w w' :=
  fun _ _ _ _ _ _ marked => .inl (idles.marks _ marked rfl)

end Idles

instance : Admits Idles where
  deed {w w'} deed := by
    have stays : ∀ entry ∈ w.memory.scheduler.inFlight,
        ∃ old ∈ w.memory.scheduler.inFlight, old.2.cell = entry.2.cell :=
      fun entry inside => ⟨entry, inside, rfl⟩
    have starts : ∀ {marks : List Mark}, (∀ mark ∈ marks, mark.ofTurn = false) →
        ∀ mark ∈ marks, mark.starts = false :=
      fun mild mark inside => starts_of_ofTurn (mild mark inside)
    cases deed with
    | quiet same => exact .same same.history (by rw [same.memory])
    | event draft => exact .same rfl rfl
    | job id f marks keeps mild => exact .marked (starts mild) rfl stays
    | thread id f marks keeps mild => exact .marked (starts mild) rfl stays
    | line row event => exact .marked (List.forall_mem_singleton.mpr rfl) rfl stays
    | schedule f marks lands mild => exact .marked (starts mild) rfl (lands _)
    | cancels c => exact .same rfl rfl
  trans := .trans
  undone idles := ⟨fun _ member _ => member, idles.lands⟩

instance : Drains Idles where
  poll turn w := by
    constructor
    · intro mark member starts
      have past : ∀ number tag event earlier,
          (mark ∈ Mark.polled number tag event :: earlier) = (mark ∈ earlier) := by
        intro number tag event earlier
        cases mark with
        | started _ _ _ _ _ _ => simp
        | _ => cases starts
      have same := poll_unseen (f := fun history => mark ∈ history) past turn w
      exact same.mp member
    · intro entry inside
      rw [(poll_leaves turn w).2] at inside
      exact ⟨entry, inside, rfl⟩
  apply turn event w := by
    have marks : ∀ mark ∈ [Mark.applied turn event.1 event.2 w.failing], mark.starts = false :=
      List.forall_mem_singleton.mpr rfl
    exact .marked marks rfl fun entry inside => ⟨entry, inside, rfl⟩

section Starting
variable {P : World → Prop} {Q : α → World → Prop} {h : Handler α}

/-- A part of the tick that launches turns on free adapters only. -/
abbrev Starts (P : World → Prop) (h : Handler α) (Q : α → World → Prop) : Prop :=
  Safe Good (others Steps .main) Launches (onOk Q) h.run P

theorem Starts.bind {f : α → Handler β} {Q' : β → World → Prop} (first : Starts P h Q)
    (rest : ∀ a, Starts (Q a) (f a) Q') : Starts P (h >>= f) Q' := by
  refine Safe.bind first fun r => ?_
  cases r with
  | ok a => exact rest a
  | error e => exact fun _ _ _ => trivial

theorem Starts.forM {xs : List β} {f : β → Handler PUnit}
    (each : ∀ x, Starts P (f x) (fun _ => P)) : Starts P (xs.forM f) (fun _ => P) := by
  induction xs with
  | nil => exact fun _ _ holds => holds
  | cons x xs ih => exact (each x).bind fun _ => ih

/-- A part that starts no turn leaves the cell as free as it was. -/
theorem Starts.idle (idles : Throughout Idles h) : Starts (Clear cell) h (fun _ => Clear cell) := by
  have guarded : Safe Good (others Steps .main) Idles (fun _ _ => True) h.run (fun _ => True) :=
    Process.Along.safe (idles [])
  have kept := guarded.keep Clear.robust.stable fun _ _ idles (clear : Clear cell _) =>
    idles.clear clear
  refine ((kept.mono (fun _ _ step => step) fun _ _ idles => idles.launches).post
    fun r w _ holds => ?_).weaken fun _ _ clear => ⟨trivial, clear⟩
  cases r with
  | ok a => exact holds.2
  | error e => trivial

theorem Starts.free (idles : Throughout Idles h) : Starts P h (fun _ _ => True) := by
  have guarded : Safe Good (others Steps .main) Idles (fun _ _ => True) h.run (fun _ => True) :=
    Process.Along.safe (idles [])
  refine ((guarded.mono (fun _ _ step => step) fun _ _ idles => idles.launches).post
    fun r w _ _ => ?_).weaken fun _ _ _ => trivial
  cases r <;> trivial

/-- An adapter that exists is asked for the turn; nothing else happens. -/
theorem startTurn_exec (cell threadId jobId : String) (nowNanos : Nat) (w : World) :
    ((startTurn cell threadId jobId nowNanos).exec w).2 =
      if (w.memory.scheduler.engine cell).isSome then
        ((launchTurn cell threadId jobId nowNanos (w.input.outside.startTurn cell).isOk).exec w).2
      else w := by
  cases found : w.memory.scheduler.engine cell with
  | none => simp [startTurn, readScheduler, readMemory, found]
  | some e => simp [startTurn, launchTurn, readScheduler, readMemory, readOutside, found]

theorem startTurn_launches {threadId jobId : String} {nowNanos : Nat} (clear : Clear cell w) :
    Launches w ((startTurn cell threadId jobId nowNanos).exec w).2 := by
  intro jobId' threadId' cell' context turn ok marked
  rw [startTurn_exec] at marked
  split at marked
  · next there =>
    rcases List.mem_cons.mp marked with new | old
    · cases new
      exact .inr ⟨there, clear⟩
    · exact .inl old
  · exact .inl marked

/-- The section in which the adapter is asked for the turn. -/
theorem startTurn_starts {threadId jobId : String} {nowNanos : Nat} : Starts (Clear cell)
    (locked (startTurn cell threadId jobId nowNanos).outcome) (fun _ _ => True) := by
  have free : ∀ (r : Except BusError (Except BusError Unit)) (w : World),
      onOk (fun _ _ => True) r w := by
    intro r w
    cases r <;> trivial
  apply Safe.critical
  · exact fun r _ t _ _ => free r t
  · intro i w _ clear
    exact startTurn_launches (w := w.install i) clear
  · exact fun i w _ _ => free _ _

theorem tryStartTurn_starts (d : CellDef) (nowNanos : Nat) :
    Starts (Clear d.name) (tryStartTurn d nowNanos) (fun _ _ => True) := by
  refine .bind (.idle (.locked (.bind (.silent (.readMemory _)) fun _ => jobLeaseNext_keeping _ _)))
    fun leased => ?_
  cases leased with
  | none => exact .free .pure
  | some job =>
    refine .bind (.idle (.locked (.query _))) fun thread => ?_
    cases thread with
    | none => exact .free .pure
    | some thread =>
      simp only
      split
      swap
      · exact .free .pure
      apply Starts.bind
      · exact .idle (.locked (.bind (jobSetState_keeping _) fun _ => threadTransition_keeping _))
      intro _
      apply Starts.bind (.idle (.locked .auditAppend))
      intro _
      refine .bind (.idle (.locked (ensure_keeping _).outcome)) fun came => ?_
      cases came with
      | error e => exact .free (failTurn_throughout _ _ _)
      | ok u =>
        refine .bind (.idle (.locked (maybeResume_keeping _ _))) fun _ => ?_
        refine .bind startTurn_starts fun started => ?_
        cases started with
        | error e => exact .free (failTurn_throughout _ _ _)
        | ok u => exact .free .pure

/-- The cell of a turn that is started was looked at, and was free. -/
theorem startTurns_starts (nowNanos : Nat) :
    Starts (fun _ => True) (startTurns nowNanos) (fun _ _ => True) := by
  refine .bind (.free startable_throughout) fun cells => .forM fun d => ?_
  have looked : Starts (fun _ => True) (locked (readScheduler (·.busy d.name)))
      (fun busy w => busy = false → Clear d.name w) := by
    apply Safe.critical
    · intro r w w' step holds
      cases r with
      | ok busy => exact fun free => Clear.robust.stable w w' step (holds free)
      | error e => trivial
    · exact fun i w _ _ => (Idles.same rfl rfl).launches
    · intro i w _ _ free entry inside
      have other := List.any_eq_false.mp free entry inside
      simpa using other
  refine looked.bind fun busy => ?_
  cases busy with
  | true => exact .free .pure
  | false => exact Safe.weaken (fun _ _ free => free rfl) (tryStartTurn_starts d nowNanos)

theorem tick_starts : Starts (fun _ => True) tick (fun _ _ => True) := by
  refine .bind (.free (.locked (.bind (.silent .nowRfc3339) fun _ => .bind (.silent .nowMs) fun _ =>
    .pure _))) fun (now, nowNanos) => ?_
  refine .bind (.free drainCancels_throughout) fun _ => ?_
  refine .bind (.free (.locked (jobRequeueExpiredLeases_keeping _))) fun _ => ?_
  refine .bind (.free inFlightKeys_throughout) fun existing => ?_
  refine .bind (.free (.forM fun _ => drainTurn_throughout)) fun _ => ?_
  refine .bind (.free inFlightKeys_throughout) fun still => ?_
  refine .bind (.free (.forM fun _ => checkDeathAndTimeout_throughout _)) fun _ => ?_
  refine .bind (startTurns_starts nowNanos) fun _ => .free ?_
  exact .bind inFlightKeys_throughout fun fresh => .forM fun _ => .ite .pure drainTurn_throughout

end Starting
section Moves

/-- Only the scheduler starts turns. -/
theorem Statement.starts (step : Statement self w w') (other : self ≠ .main) (mark : Mark)
    (starts : mark.starts = true) (member : mark ∈ w'.history) : mark ∈ w.history := by
  have extended := step.extends
  generalize w'.history = later at extended member
  cases extended with
  | same => exact member
  | marked new warrants =>
    rcases List.mem_cons.mp member with rfl | old
    · cases mark with
      | started jobId threadId cell context turn ok => exact absurd warrants.1 other
      | _ => cases starts
    · exact old
  | polled turn events =>
    rcases List.mem_append.mp member with new | old
    · obtain ⟨event, _, rfl⟩ := List.mem_map.mp (List.mem_reverse.mp new)
      cases starts
    · exact old

theorem Steps.launches (steps : Steps actor w w') (other : actor ≠ .main) : Launches w w' := by
  have kept : ∀ mark : Mark, mark.starts = true → mark ∈ w'.history → mark ∈ w.history := by
    induction steps with
    | refl => exact fun _ _ member => member
    | tail _ last ih =>
      exact fun mark starts member => ih mark starts (last.starts other mark starts member)
  exact fun _ _ _ _ _ _ marked => .inl (kept _ rfl marked)

/-- Elementary steps that launch turns on free adapters only. -/
def Drives (actor : Actor) (w w' : World) : Prop := Steps actor w w' ∧ Launches w w'

theorem others_drives (step : others Drives self w w') : others Steps self w w' := by
  obtain ⟨actor, other, running, moved, _⟩ := step
  exact ⟨actor, other, running, moved⟩

variable [Platform] {c d : FabricConfig}

theorem sound_drives : Sound service Good Drives (fun _ _ => True) answers where
  keeps actor w w' moved good := sound.keeps actor w w' moved.1 good
  waits _ _ _ _ _ _ _ := trivial
  lasts k request r actor other w w' moved holds :=
    sound.lasts k request r actor other w w' moved.1 holds
  program k request := (sound.program k request).mono (fun _ _ => others_drives)
    fun _ _ steps => ⟨steps, steps.launches Actor.noConfusion⟩
  loop := by
    have ticks := (tick_plain.both tick_starts).mono (fun _ _ => others_drives)
      fun _ _ moved => moved
    refine Safe.bind (ticks.weaken fun _ _ _ => ⟨trivial, trivial⟩) fun _ => ?_
    exact Safe.pure fun _ _ _ => trivial
  happens event w w' good happened := by
    have steps := sound.happens event w w' good happened
    exact ⟨steps, steps.launches Actor.noConfusion⟩
  restarts i w good := by
    have steps := sound.restarts i w good
    exact ⟨steps, steps.launches Actor.noConfusion⟩

/-- A move that starts a turn finds an adapter of the cell, on which nothing is in flight. -/
theorem launches_next (blank : Blank w) (reached : service.Reaches w c)
    (stepped : service.next c action = some d) : Launches c.shared d.shared := by
  have holds := sound_drives.holds_reaches blank.good (fun _ => trivial) reached
  rcases sound_drives.moves_next holds stepped with same | ⟨actor, moved⟩
  · rw [same]
    exact fun _ _ _ _ _ _ marked => .inl marked
  · exact moved.2

theorem next_grows (blank : Blank w) (reached : service.Reaches w c)
    (stepped : service.next c action = some d) : c.shared.history <:+ d.shared.history := by
  rcases sound.moves_next (holds_reachable blank reached) stepped with same | ⟨actor, moved⟩
  · rw [same]
  · exact moved.grows.history

end Moves

section Numbers
variable {history : List Mark} {jobId threadId cell jobId' threadId' cell' : String}
  {context context' : Option String} {turn : Nat} {ok ok' : Bool}

/-- A turn has the number of marks before it. -/
def Placed (earlier : List Mark) : Mark → Prop
  | .started _ _ _ _ turn _ => turn = earlier.length
  | _ => True

theorem Statement.placed (step : Statement self w w') (each : Each Placed w.history) :
    Each Placed w'.history := by
  refine step.each (fun _ _ _ _ => trivial) (fun mark warrants => ?_) each
  cases mark with
  | started jobId threadId cell context turn ok => exact warrants.2.2
  | _ => trivial

theorem started_lt (each : Each Placed history)
    (marked : Mark.started jobId threadId cell context turn ok ∈ history) :
    turn < history.length := by
  obtain ⟨later, before, rfl⟩ := List.append_of_mem marked
  have numbered : turn = before.length := each.at_mark
  rw [List.length_append, List.length_cons]
  omega

/-- Turns with one number are of one cell. -/
theorem started_cell (each : Each Placed history)
    (marked : Mark.started jobId threadId cell context turn ok ∈ history)
    (marked' : Mark.started jobId' threadId' cell' context' turn ok' ∈ history) : cell = cell' := by
  induction history with
  | nil => cases marked
  | cons mark earlier ih =>
    have apart : ∀ {jobId threadId cell context ok jobId' threadId' cell' context' ok'},
        mark = .started jobId threadId cell context turn ok →
        Mark.started jobId' threadId' cell' context' turn ok' ∉ earlier := by
      rintro _ _ _ _ _ _ _ _ _ _ rfl inside
      exact absurd (started_lt each.1 inside) (Nat.not_lt.mpr (Nat.le_of_eq each.2.symm))
    rcases List.mem_cons.mp marked with first | old <;>
      rcases List.mem_cons.mp marked' with first' | old'
    · cases first.trans first'.symm
      rfl
    · exact absurd old' (apart first.symm)
    · exact absurd old (apart first'.symm)
    · exact ih each.1 old old'

end Numbers

section Deaths

/-- No end of the turn was taken from the adapter, or is held there. -/
structure Unended (history : List Mark) (turn : Nat) (e : Engine) : Prop where
  held : ∀ event ∈ e.outbox, event.2.terminal = false
  taken : ∀ mark ∈ history, mark.ends turn = false

/-- The adapter of the cell runs a turn. -/
def Works (cell : String) (e : Engine) (w : World) : Prop :=
  ∃ entry ∈ w.memory.scheduler.inFlight, entry.2.cell = cell ∧ Unended w.history entry.2.turn e

/-- A process that is dead died at work. -/
def Manned (w : World) : Prop :=
  ∀ cell e, w.memory.scheduler.engine cell = some e → e.up = true ∨ Works cell e w

/-- Engines die at work, and no turn is given up for its time when its engine has died
since the scheduler looked. -/
def Attended (_ : List Mark) : Mark → Prop
  | .died _ idle => idle = false
  | .timedOut _ _ _ up => up = true
  | _ => True

instance (earlier : List Mark) : ∀ mark, Decidable (Attended earlier mark)
  | .died .. | .timedOut .. => by dsimp only [Attended]; infer_instance
  | .wrote .. | .made .. | .attached .. | .started .. | .requeued .. | .emitted .. | .polled .. |
    .applied .. | .stopped .. | .journaled .. | .moved .. | .spawned .. | .restarted =>
    instDecidableTrue

/-- What the adapter holds stays, and its process is not gone. -/
def Outlives (e e' : Engine) : Prop := e'.outbox = e.outbox ∧ (e.up = true → e'.up = true)

theorem Outlives.rfl (e : Engine) : Outlives e e := ⟨.refl _, fun up => up⟩

theorem Unended.grow {history later : List Mark} {turn : Nat} {e e' : Engine}
    (unended : Unended history turn e) (outbox : e'.outbox = e.outbox)
    (marks : ∀ mark ∈ later, mark.ends turn = true → mark ∈ history) : Unended later turn e' := by
  constructor
  · rw [outbox]
    exact unended.held
  · intro mark inside
    by_contra ends
    have old := marks mark inside (Bool.eq_true_of_not_eq_false ends)
    exact ends (unended.taken mark old)

/-- Steps that leave adapters alive, the turns of dead ones in flight, and end no turn. -/
theorem Manned.frame (manned : Manned w) (adapters : Survive Outlives w w')
    (turns : ∀ entry ∈ w.memory.scheduler.inFlight, ∀ e,
      w.memory.scheduler.engine entry.2.cell = some e → e.up = false →
      Unended w.history entry.2.turn e → ∃ entry' ∈ w'.memory.scheduler.inFlight,
        entry'.2.cell = entry.2.cell ∧ entry'.2.turn = entry.2.turn)
    (marks : ∀ turn, ∀ mark ∈ w'.history, mark.ends turn = true → mark ∈ w.history) :
    Manned w' := by
  intro cell e' found
  obtain ⟨e, there, outbox, alive⟩ := adapters cell e' found
  cases up : e.up with
  | true => exact .inl (alive up)
  | false =>
    obtain ⟨entry, flying, rfl, unended⟩ :=
      (manned cell e there).resolve_left (Bool.eq_false_iff.mp up)
    obtain ⟨entry', flying', cell, turn⟩ := turns entry flying e there up unended
    refine .inr ⟨entry', flying', cell, ?_⟩
    rw [turn]
    exact unended.grow outbox (marks _)

/-- The same where the turns in flight are left alone. -/
theorem Manned.still (manned : Manned w) (adapters : Survive Outlives w w')
    (inFlight : w'.memory.scheduler.inFlight = w.memory.scheduler.inFlight)
    (marks : ∀ turn, ∀ mark ∈ w'.history, mark.ends turn = true → mark ∈ w.history) :
    Manned w' := by
  refine manned.frame adapters (fun entry flying _ _ _ _ => ?_) marks
  rw [inFlight]
  exact ⟨entry, flying, rfl, rfl⟩

theorem ends_cons {mark : Mark} {history : List Mark} (aside : ∀ turn, mark.ends turn = false) :
    ∀ turn, ∀ other ∈ mark :: history, other.ends turn = true → other ∈ history := by
  intro turn other inside ends
  rcases List.mem_cons.mp inside with rfl | old
  · rw [aside] at ends
    cases ends
  · exact old

/-- A working engine dies. -/
theorem Manned.died (manned : Manned w) (busy : idle cell w = false) : Manned { w with
    memory := w.memory.schedule (·.updateEngine cell fun e => { e with up := false })
    history := .died cell (idle cell w) :: w.history } := by
  have marks : ∀ turn, ∀ other ∈ Mark.died cell (idle cell w) :: w.history,
      other.ends turn = true → other ∈ w.history := ends_cons fun _ => rfl
  intro other e' found
  have looked := engine_updateEngine.symm.trans found
  split at looked
  · rename_i named
    subst named
    obtain ⟨e, there, rfl⟩ := Option.map_eq_some_iff.mp looked
    have works : working other w = true := by simpa [idle, there] using busy
    obtain ⟨entry, flying, facts⟩ := List.any_eq_true.mp works
    obtain ⟨inCell, held, taken⟩ := of_decide_eq_true facts
    have unended : Unended w.history entry.2.turn e := by
      constructor
      · rw [there] at held
        intro event inside
        simpa using List.all_eq_true.mp held event inside
      · intro mark inside
        simpa using List.all_eq_true.mp taken mark inside
    exact .inr ⟨entry, flying, inCell, unended.grow rfl (marks _)⟩
  · rcases manned other e' looked with up | ⟨entry, flying, inCell, unended⟩
    · exact .inl up
    · exact .inr ⟨entry, flying, inCell, unended.grow rfl (marks _)⟩

/-- An engine that reports is alive. -/
theorem Manned.emitted {turn : Nat} {event : EngineEvent} (manned : Manned w)
    (emits : w.memory.scheduler.emits cell turn = true) : Manned { w with
      memory := w.memory.schedule (·.updateEngine cell fun e =>
        { e with outbox := e.outbox ++ [(turn, event)] })
      history := .emitted turn event :: w.history } := by
  have marks : ∀ number, ∀ other ∈ Mark.emitted turn event :: w.history,
      other.ends number = true → other ∈ w.history := ends_cons fun _ => rfl
  intro other e' found
  have looked := engine_updateEngine.symm.trans found
  split at looked
  · rename_i named
    subst named
    obtain ⟨e, there, rfl⟩ := Option.map_eq_some_iff.mp looked
    obtain ⟨e', there', alive⟩ := (Option.any_eq_true _ _).mp emits
    cases there.symm.trans there'
    exact .inl (of_decide_eq_true alive).1
  · rcases manned other e' looked with up | ⟨entry, flying, inCell, unended⟩
    · exact .inl up
    · exact .inr ⟨entry, flying, inCell, unended.grow rfl (marks _)⟩

theorem Calm.manned (step : Calm w w') (attended : Each Attended w'.history) (manned : Manned w) :
    Manned w' := by
  have same := step.inFlight
  cases step with
  | quiet quiet =>
    refine manned.still (.same .rfl (by rw [quiet.memory])) same fun _ _ inside _ => ?_
    rwa [quiet.history] at inside
  | journal _ _ _ _ | moved _ _ _ _ _ _ _ | recorded _ _ _ | cancelled _ _ _ =>
    exact manned.still (.same .rfl rfl) same (ends_cons fun _ => rfl)
  | stopped cell => exact manned.still (.stopped .rfl rfl) same (ends_cons fun _ => rfl)
  | died cell => exact manned.died attended.2
  | adapted cell f keeps _ =>
    refine manned.still (.updated .rfl rfl fun e => ?_) same fun _ _ inside _ => inside
    exact ⟨(keeps e).1, fun up => (keeps e).2.2.trans up⟩
  | emitted cell turn event emits => exact manned.emitted emits
  | _ => exact manned.still (.same .rfl rfl) same fun _ _ inside _ => inside

/-- What a poll takes ends no turn of another cell, and none that goes on. -/
theorem Manned.polled {threadId : String} {turn : InFlightTurn} (manned : Manned w)
    (good : Good w) (each : Each Placed w.history)
    (found : w.memory.scheduler.turn threadId = some turn) : Manned ((poll turn).exec w).2 := by
  obtain ⟨_, marked⟩ := good.2.2.launched (threadId, turn) (mem_of_lookup found)
  cases there : w.memory.scheduler.engine turn.cell with
  | none =>
    simp only [poll, Action.exec_step, there]
    exact manned
  | some e =>
    have history : ((poll turn).exec w).2.history = polls turn.turn e.outbox ++ w.history := by
      simp [poll, there, polls]
    have scheduler : ((poll turn).exec w).2.memory.scheduler =
        w.memory.scheduler.updateEngine turn.cell fun e => { e with outbox := [] } := by
      simp [poll, there, Memory.schedule]
    intro other e' looked
    rw [scheduler, engine_updateEngine] at looked
    have kept : ∀ old, w.memory.scheduler.engine other = some old → old.up = e'.up →
        (∀ event ∈ e'.outbox, event ∈ old.outbox) → e'.up = true ∨
          Works other e' ((poll turn).exec w).2 := by
      intro old before up fewer
      rcases manned other old before with alive | ⟨entry, flying, rfl, unended⟩
      · exact .inl (up.symm.trans alive)
      · rw [Works, (poll_leaves turn w).2]
        refine .inr ⟨entry, flying, rfl, fun event held => unended.held event (fewer event held), ?_⟩
        rw [history]
        intro mark inside
        rcases List.mem_append.mp inside with new | past
        · obtain ⟨event, held, rfl⟩ := List.mem_map.mp (List.mem_reverse.mp new)
          by_contra ends
          obtain ⟨number, terminal⟩ := of_decide_eq_true (Bool.eq_true_of_not_eq_false ends)
          obtain ⟨_, own⟩ := good.2.2.launched entry flying
          rw [number] at marked
          have cells := started_cell each marked own
          rw [← cells, there] at before
          cases before
          rw [unended.held event held] at terminal
          cases terminal
        · exact unended.taken mark past
    split at looked
    · rename_i named
      obtain ⟨old, before, rfl⟩ := Option.map_eq_some_iff.mp looked
      exact kept old before rfl fun event held => by cases held
    · exact kept e' looked rfl fun event held => held

/-- A turn is started on a cell without one, for a thread without one. -/
theorem Manned.launched {job : CellJob} {nowNanos : Nat} {ok : Bool} (manned : Manned w)
    (inv : Inv w) (startable : Startable job cell w) :
    Manned ((launchTurn cell job.crewdThreadId job.jobId nowNanos ok).exec w).2 := by
  have adapters : Survive Outlives w
      ((launchTurn cell job.crewdThreadId job.jobId nowNanos ok).exec w).2 := by
    apply Survive.updated (f := fun e => { e with started := w.history.length :: e.started }) .rfl
    · cases ok <;> rfl
    · exact fun _ => ⟨rfl, fun up => up⟩
  refine manned.frame adapters (fun entry flying e _ _ _ => ?_) (ends_cons fun _ => rfl)
  cases ok with
  | false => exact ⟨entry, flying, rfl, rfl⟩
  | true =>
    have apart := startable.unflown inv flying
    exact ⟨entry, mem_put.mpr (.inr ⟨flying, apart⟩), rfl, rfl⟩

theorem Statement.manned (step : Statement self w w') (good : Good w)
    (placed : Each Placed w.history) (attended : Each Attended w'.history)
    (manned : Manned w) : Manned w' := by
  cases step with
  | calm step => exact step.manned attended manned
  | polled threadId turn _ found => exact manned.polled good placed found
  | leased _ _ _ _ _ _ | begun _ _ _ _ | running _ _ _ _ _ _ _ _ _ _ | finished _ _ _ _
  | requeued _ _ _ | applied _ _ _ _ _ =>
    exact manned.still (.same .rfl rfl) rfl (ends_cons fun _ => rfl)
  | launched job cell nowNanos ok _ startable _ _ _ => exact manned.launched good.1 startable
  | made cell kind threadId _ _ _ =>
    intro other e found
    have looked := lookup_put.symm.trans found
    split at looked
    · cases looked
      exact .inl rfl
    · rcases manned other e looked with up | ⟨entry, flying, inCell, unended⟩
      · exact .inl up
      · exact .inr ⟨entry, flying, inCell, unended.grow rfl (ends_cons (fun _ => rfl) _)⟩
  | attached thread cell f _ _ _ resumes =>
    refine manned.still (.updated .rfl rfl fun e => ?_) rfl (ends_cons fun _ => rfl)
    exact ⟨(resumes.1 e).1, fun up => (resumes.1 e).2.2.trans up⟩
  | persisted _ _ _ _ _ _ =>
    exact manned.still (.same .rfl rfl) rfl fun _ _ inside _ => inside
  | updatedTurn threadId f _ keeps =>
    refine manned.frame (.same .rfl rfl) (fun entry flying _ _ _ _ => ?_) fun _ _ inside _ => inside
    refine ⟨_, mem_alter.mpr ⟨entry, flying, rfl⟩, ?_⟩
    split
    · exact ⟨(keeps entry.2).1, (keeps entry.2).2.1⟩
    · exact ⟨rfl, rfl⟩
  | landed threadId _ over' =>
    -- the adapter of a turn that is over is gone, or its end was taken
    refine manned.frame (.same .rfl rfl) (fun entry flying e there _ unended => ?_)
      fun _ _ inside _ => inside
    have apart : entry.1 ≠ threadId := by
      rintro rfl
      rcases over' entry.2 flying with gone | ⟨tag, event, terminal, taken⟩
      · rw [there] at gone
        cases gone
      · have still := unended.taken _ taken
        simp [Mark.ends, terminal] at still
    exact ⟨entry, mem_without.mpr ⟨flying, apart⟩, rfl, rfl⟩
  | dropped cell _ gone =>
    refine manned.frame (.same .rfl rfl) (fun entry flying e there _ _ => ?_)
      fun _ _ inside _ => inside
    have apart : entry.2.cell ≠ cell := by
      rintro rfl
      rw [there] at gone
      cases gone
    exact ⟨entry, List.mem_filter.mpr ⟨flying, decide_eq_true apart⟩, rfl, rfl⟩
  | overdue threadId _ =>
    revert attended
    cases found : w.memory.scheduler.turn threadId with
    | none =>
      simp only [takeTurn, Action.exec_step, found]
      exact fun _ => manned
    | some turn =>
      simp only [takeTurn, Action.exec_step, found]
      intro attended
      refine manned.frame (.same .rfl rfl) (fun entry flying e there dead _ => ?_)
        (ends_cons fun _ => rfl)
      have apart : entry.1 ≠ threadId := by
        rintro rfl
        cases found.symm.trans (lookup_of_mem good.1.turnsOnce flying)
        have alive : (w.memory.scheduler.engine entry.2.cell).all (·.up) = true := attended.2
        rw [there] at alive
        exact Bool.noConfusion (dead.symm.trans alive)
      exact ⟨entry, mem_without.mpr ⟨flying, apart⟩, rfl, rfl⟩
  | restarted acl _ => exact fun _ _ found => by cases found

variable [Platform] {c : FabricConfig}

theorem manned_reachable (cold : Cold w) (reached : service.Reaches w c)
    (attended : Each Attended c.shared.history) : Manned c.shared := by
  have both : Each Placed c.shared.history ∧ Manned c.shared := by
    apply always_where (P := fun s => Each Placed s.history ∧ Manned s) cold.toBlank reached attended
    · rw [cold.history]
      refine ⟨trivial, fun cell e found => ?_⟩
      rw [Scheduler.engine, cold.engines] at found
      cases found
    · exact fun _ _ _ step good attended holds =>
        ⟨step.placed holds.1, step.manned good holds.1 attended holds.2⟩
  exact both.2

/-- In every run in which engines die at work only, a dead process in the map still has its
turn in flight, and every turn was started by a move that found the adapter alive. -/
theorem turns_started_on_live_engines (cold : Cold w) (reached : service.Reaches w c)
    (attended : Each Attended c.shared.history) :
    (∀ cell e, c.shared.memory.scheduler.engine cell = some e → e.up = true ∨
      ∃ entry ∈ c.shared.memory.scheduler.inFlight, entry.2.cell = cell) ∧
    ∀ jobId threadId cell context turn ok,
      Mark.started jobId threadId cell context turn ok ∈ c.shared.history →
      ∃ u v action e, service.Reaches w u ∧ service.next u action = some v ∧ service.Leads v c ∧
        Mark.started jobId threadId cell context turn ok ∉ u.shared.history ∧
        Mark.started jobId threadId cell context turn ok ∈ v.shared.history ∧
        u.shared.memory.scheduler.engine cell = some e ∧ e.up = true := by
  constructor
  · intro cell e found
    rcases manned_reachable cold reached attended cell e found with up | ⟨entry, flying, inCell, _⟩
    · exact .inl up
    · exact .inr ⟨entry, flying, inCell⟩
  · intro jobId threadId cell context turn ok marked
    induction reached with
    | refl =>
      rw [show (System.dormant w : FabricConfig).shared.history = [] from cold.history] at marked
      cases marked
    | @next u action v before stepped ih =>
      have grows : u.shared.history <:+ v.shared.history := next_grows cold.toBlank before stepped
      have earlier := attended.suffix grows
      by_cases old : Mark.started jobId threadId cell context turn ok ∈ u.shared.history
      · obtain ⟨a, b, move, e, first, step, later, rest⟩ := ih earlier old
        exact ⟨a, b, move, e, first, step, later.next stepped, rest⟩
      · obtain ⟨there, clear⟩ := (launches_next cold.toBlank before stepped _ _ _ _ _ _
          marked).resolve_left old
        obtain ⟨e, found⟩ := Option.isSome_iff_exists.mp there
        refine ⟨u, v, action, e, before, stepped, .refl _, old, marked, found, ?_⟩
        apply (manned_reachable cold before earlier cell e found).resolve_right
        rintro ⟨entry, flying, inCell, _⟩
        exact clear entry flying inCell

end Deaths
section Sample

/-- A turn of the first thread of a codex cell, in flight. -/
def codexTurn : List (Move (Input Outside) Request Event) :=
  start 1783242000 :: .event (.cellRegistered codexCell) :: spawning 0 "k1" 1783242000 ++
    codexTicking 17 1783242001

/-- A section in which the process of a codex engine is gone. -/
def brokenMoment (secs : Nat) : Input Outside :=
  { codexMoment secs with
    outside := { (codexMoment secs).outside with
      startTurn := fun _ => .error (.engineDown "codex write: Broken pipe (os error 32)") } }

def brokenTicking (count secs : Nat) : List (Move (Input Outside) Request Event) :=
  List.replicate count (.main (brokenMoment secs))

/-- The adapters that were made, and the turns they were asked for with the answer. -/
def askedTurns (history : List Mark) : List (String × Option (String × Bool)) :=
  history.filterMap fun
    | .made cell _ => some (cell, none)
    | .started jobId _ cell _ _ ok => some (cell, some (jobId, ok))
    | _ => none

def firstJob : String := "0197d8a0-0000-7000-8000-000000000001"
def secondJob : String := "0197d8a0-0000-7000-8000-000000000002"

/-- The engine dies during a turn, is stopped, and the turn is started on a new one. -/
theorem dead_engine_replaced : ∃ c u e, sampleService.Reaches blankWorld c ∧
    askedTurns c.shared.history = [("reviewer", some (firstJob, true)), ("reviewer", none),
      ("reviewer", some (firstJob, true)), ("reviewer", none)] ∧
    sampleService.Reaches blankWorld u ∧
    u.shared.memory.scheduler.engine "reviewer" = some e ∧ e.up = true := by
  let _ := Platform.sample
  have ran : (sampleService.runs (System.dormant blankWorld)
      (codexTurn ++ .event (.died "reviewer") :: codexTicking 20 1783242004)).map (fun c => decide (
        Each Attended c.shared.history ∧
        askedTurns c.shared.history = [("reviewer", some (firstJob, true)),
          ("reviewer", none), ("reviewer", some (firstJob, true)), ("reviewer", none)] ∧
        .started firstJob firstThread "reviewer" (some "engine-1") 17 true ∈
          c.shared.history)) = some true := by
    decide +kernel
  obtain ⟨c, run, facts⟩ := Option.map_eq_some_iff.mp ran
  obtain ⟨attended, asked, marked⟩ := of_decide_eq_true facts
  have reached : sampleService.Reaches blankWorld c := System.leads_of_runs _ run
  obtain ⟨u, _, _, e, before, _, _, _, _, found, alive⟩ :=
    (turns_started_on_live_engines blankWorld_cold reached attended).2 _ _ _ _ _ _ marked
  exact ⟨c, u, e, reached, asked, before, found, alive⟩

/-- An engine dies after its turn was answered. The next job of the cell is started on its
adapter, fails, and is started on it again in each of the two ticks that follow. -/
theorem dead_engine_reused : ∃ c d later e, sampleService.Reaches blankWorld c ∧
    c.shared.memory.scheduler.engine "reviewer" = some e ∧ e.up = false ∧ e.started ≠ [] ∧
    sampleService.next c (.main (brokenMoment 1783242004)) = some d ∧
    askedTurns d.shared.history =
      ("reviewer", some (secondJob, false)) :: askedTurns c.shared.history ∧
    sampleService.Leads d later ∧ askedTurns later.shared.history =
      ("reviewer", some (secondJob, false)) :: ("reviewer", some (secondJob, false)) ::
        askedTurns d.shared.history := by
  let _ := Platform.sample
  have ran : ((sampleService.runs (System.dormant blankWorld) (codexAnswer ++
      .event (.died "reviewer") :: sendingTask 1 firstThread 1783242003 ++
        brokenTicking 14 1783242004)).bind fun c =>
      (c.shared.memory.scheduler.engine "reviewer").bind fun e =>
      (sampleService.next c (.main (brokenMoment 1783242004))).bind fun d =>
      (sampleService.runs d (brokenTicking 45 1783242005)).map fun later => decide (
        e.up = false ∧ e.started ≠ [] ∧ askedTurns d.shared.history =
          ("reviewer", some (secondJob, false)) :: askedTurns c.shared.history ∧
        askedTurns later.shared.history =
          ("reviewer", some (secondJob, false)) :: ("reviewer", some (secondJob, false)) ::
            askedTurns d.shared.history)) = some true := by
    decide +kernel
  obtain ⟨c, run, rest⟩ := Option.bind_eq_some_iff.mp ran
  obtain ⟨e, found, rest⟩ := Option.bind_eq_some_iff.mp rest
  obtain ⟨d, stepped, rest⟩ := Option.bind_eq_some_iff.mp rest
  obtain ⟨later, run', facts⟩ := Option.map_eq_some_iff.mp rest
  obtain ⟨down, used, first, more⟩ := of_decide_eq_true facts
  exact ⟨c, d, later, e, System.leads_of_runs _ run, found, down, used, stepped, first,
    System.leads_of_runs _ run', more⟩

end Sample
end Crewd.Fabric
