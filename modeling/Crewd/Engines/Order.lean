import Crewd.Engines.Turns

/-! The order of the turns of the claude shim. The promise that the next turn waits for is
forgotten whenever a turn is settled: turns keep apart as long as none is asked for at such a
time while another goes on, and as soon as one is, two can run at once. -/
namespace Crewd.Engines
open Machines Chains

section Keeping
open ClaudeShim
variable {host : ShimHost} {s : ClaudeShim} {turn : Nat} {old new : AskedTurn}

/-- The number under which a turn was accepted. -/
def ClaudeShim.numberOf (s : ClaudeShim) (turn : Nat) : Option Nat :=
  s.turns[turn]?.bind (·.phase.number)

def ClaudeShim.Runs (s : ClaudeShim) (turn : Nat) : Prop :=
  s.chain.stages[turn]? = some Stage.runs

instance (s : ClaudeShim) (turn : Nat) : Decidable (s.Runs turn) :=
  inferInstanceAs (Decidable (_ = _))

/-- What an event does to the variables that name turns: a turn begins or ends, or they stay. -/
inductive Went (host : ShimHost) (s : ClaudeShim) : ClaudeShim × List ShimEffect → Prop where
  | begun (turn : Nat) (msg : Json) (behind : Option Nat)
      (here : s.turns[turn]? = some ⟨msg, .waits behind⟩) (free : s.chain.frees behind = true) :
      Went host s (s.runTurn host turn msg)
  | ended (turn : Nat) (msg : Json) (number : Nat) (aborted : Bool)
      (result : String × Option String) (line : Option Json)
      (here : s.turns[turn]? = some ⟨msg, .runs number aborted result⟩) :
      Went host s (s.finish turn msg number line)
  | aside (t : ClaudeShim) (turn : Nat) (lines : List (Option Json))
      (runs : lines = [] ∨ s.Runs turn) (aim : t.currentAbort = s.currentAbort)
      (count : t.turnCounter = s.turnCounter) (numbers : ∀ turn, t.numberOf turn = s.numberOf turn)
      (same : ∀ turn, t.Runs turn ↔ s.Runs turn) : Went host s (t, lines.map (.writes turn))

theorem numberOf_put (new : AskedTurn) (here : s.turns[turn]? = some old)
    (same : new.phase.number = old.phase.number) (other : Nat) :
    (s.put turn new).numberOf other = s.numberOf other := by
  rw [numberOf, numberOf, turns_put here]
  split
  · next this =>
    subst this
    rw [here]
    exact same
  · rfl

/-- The variables that name turns stay, and nothing is written. -/
theorem Went.quiet {t : ClaudeShim} (aim : t.currentAbort = s.currentAbort)
    (count : t.turnCounter = s.turnCounter) (numbers : ∀ turn, t.numberOf turn = s.numberOf turn)
    (same : ∀ turn, t.Runs turn ↔ s.Runs turn) : Went host s (t, []) :=
  .aside t 0 [] (.inl rfl) aim count numbers same

/-- A turn is put where one was that ran as it does, or did not run as it does not. -/
theorem Went.put (t : ClaudeShim) (new : AskedTurn) (here : s.turns[turn]? = some old)
    (turns : t.turns = (s.put turn new).turns) (aim : t.currentAbort = s.currentAbort)
    (count : t.turnCounter = s.turnCounter) (same : new.phase.number = old.phase.number)
    (runs : new.phase.stage = .runs ↔ old.phase.stage = .runs) (lines : List (Option Json))
    (writes : lines = [] ∨ s.Runs turn) : Went host s (t, lines.map (.writes turn)) := by
  apply Went.aside t turn lines writes aim count
  · intro other
    rw [numberOf, turns]
    exact numberOf_put new here same other
  · intro other
    rw [Runs, Runs, chain_stage, chain_stage, turns, turns_put here]
    split
    · next this =>
      subst this
      simp [here, runs]
    · rfl

theorem went_abort (host : ShimHost) (s : ClaudeShim) (exited : Bool) :
    Went host s ({ s.abort with exited := exited }, []) := by
  unfold abort
  split
  · exact .quiet rfl rfl (fun _ => rfl) fun _ => Iff.rfl
  · split
    · next turn aim _ msg number aborted result here =>
      exact .put { s.put turn ⟨msg, .runs number true result⟩ with exited := exited }
        ⟨msg, .runs number true result⟩ here rfl rfl rfl rfl Iff.rfl [] (.inl rfl)
    · exact .quiet rfl rfl (fun _ => rfl) fun _ => Iff.rfl

theorem went_handle (host : ShimHost) (s : ClaudeShim) (msg : Json) :
    Went host s (s.handle msg, []) := by
  unfold handle
  split
  · refine .quiet rfl rfl ?_ ?_
    · intro turn
      rw [numberOf, numberOf]
      dsimp only
      rcases Nat.lt_or_ge turn s.turns.length with within | beyond
      · rw [List.getElem?_append_left within]
      · rw [List.getElem?_append_right beyond, List.getElem?_eq_none beyond]
        cases turn - s.turns.length <;> rfl
    · intro turn
      rw [Runs, Runs, chain_stage, chain_stage]
      dsimp only
      rcases Nat.lt_or_ge turn s.turns.length with within | beyond
      · rw [List.getElem?_append_left within]
      · rw [List.getElem?_append_right beyond, List.getElem?_eq_none beyond]
        cases turn - s.turns.length <;> simp [TurnPhase.stage]
  · exact went_abort host s s.abort.exited
  · exact went_abort host s true
  · exact .quiet rfl rfl (fun _ => rfl) fun _ => Iff.rfl

theorem went_act (host : ShimHost) (s : ClaudeShim) (e : ShimEvent) :
    Went host s (s.act host e) := by
  have still : Went host s (s, []) := .quiet rfl rfl (fun _ => rfl) fun _ => Iff.rfl
  cases e with
  | line msg =>
    rw [act]
    split
    · cases msg with
      | none => exact still
      | some msg => exact went_handle host s msg
    · exact still
  | closes =>
    rw [act]
    split <;> exact .quiet rfl rfl (fun _ => rfl) fun _ => Iff.rfl
  | begins turn =>
    rw [act]
    split
    · next msg behind here =>
      split
      · next free => exact .begun turn msg behind here free
      · exact still
    · exact still
  | message turn message =>
    rw [act]
    split
    · next msg number aborted result here =>
      have went : Went host s (s.put turn _, ((notes message).map some).map (.writes turn)) :=
        .put _ ⟨msg, .runs number aborted (resultAfter result message)⟩ here rfl rfl rfl rfl Iff.rfl
          ((notes message).map some) (.inr (stage_of here))
      rw [List.map_map] at went
      exact went
    · exact still
  | ends turn =>
    rw [act]
    split
    · next here => exact .ended _ _ _ _ _ _ here
    · exact still
  | throws turn raw =>
    rw [act]
    split
    · next here => exact .ended _ _ _ _ _ _ here
    · exact still
  | clears turn =>
    rw [act]
    split
    · next msg number here =>
      exact .put { s.put turn ⟨msg, .cleared number⟩ with running := none } ⟨msg, .cleared number⟩
        here rfl rfl rfl rfl (by simp [TurnPhase.stage]) [] (.inl rfl)
    · exact still
  | leaves => exact .quiet rfl rfl (fun _ => rfl) fun _ => Iff.rfl


/-- The variables name the turns, which keep apart. -/
structure InTurn (s : ClaudeShim) : Prop where
  linked : Linked s.chain
  apart : Apart s.chain
  aimed : ∀ turn, s.currentAbort = some turn ↔ s.Runs turn
  counted : ∀ turn, s.numberOf turn = if turn < s.turnCounter then some (turn + 1) else none

theorem number_of_started {phase : TurnPhase} (started : phase.stage.started = true) :
    ∃ number, phase.number = some number := by
  cases phase with
  | waits => cases started
  | runs number | finished number | cleared number => exact ⟨number, rfl⟩

theorem started_of_number {phase : TurnPhase} {number : Nat} (named : phase.number = some number) :
    phase.stage.started = true := by
  cases phase with
  | waits => cases named
  | runs | finished | cleared => rfl

namespace InTurn

theorem counts (inTurn : InTurn s) {stage : Stage} (here : s.chain.stages[turn]? = some stage)
    (started : stage.started = true) : turn < s.turnCounter := by
  rw [chain_stage] at here
  obtain ⟨asked, there, same⟩ := Option.map_eq_some_iff.mp here
  obtain ⟨number, named⟩ := number_of_started (same ▸ started)
  by_contra beyond
  have none := inTurn.counted turn
  rw [if_neg beyond, numberOf, there, Option.bind_some, named] at none
  cases none

theorem started (inTurn : InTurn s) (counted : turn < s.turnCounter) :
    ∃ stage, s.chain.stages[turn]? = some stage ∧ stage.started = true := by
  have number := inTurn.counted turn
  rw [if_pos counted] at number
  obtain ⟨asked, here, named⟩ := Option.bind_eq_some_iff.mp number
  exact ⟨_, stage_of here, started_of_number named⟩

/-- The turn that runs is the last that has started. -/
theorem runs_last (inTurn : InTurn s) (runs : s.Runs turn) : turn + 1 = s.turnCounter := by
  have within := inTurn.counts runs rfl
  rcases Nat.lt_or_ge (turn + 1) s.turnCounter with later | last
  · obtain ⟨stage, there, started⟩ := inTurn.started later
    obtain ⟨stage, here, done⟩ := inTurn.apart.behind turn (turn + 1) _ (by omega) there started
    rw [Runs] at runs
    obtain rfl := Option.some.inj (runs.symm.trans here)
    cases done
  · omega

/-- A turn that may start is the next. -/
theorem starts_next (inTurn : InTurn s) {msg : Json} {behind : Option Nat}
    (here : s.turns[turn]? = some ⟨msg, .waits behind⟩) (free : s.chain.frees behind = true) :
    turn = s.turnCounter := by
  have before := inTurn.apart.clearBefore (stage_of here) free
  rcases Nat.lt_trichotomy turn s.turnCounter with earlier | same | later
  · have number := inTurn.counted turn
    rw [if_pos earlier, numberOf, here] at number
    cases number
  · exact same
  · obtain ⟨stage, there, done⟩ := before s.turnCounter later
    have := inTurn.counts there (Stage.started_of_done done)
    omega

/-- While a turn may start none runs. -/
theorem starts_alone (inTurn : InTurn s) {msg : Json} {behind : Option Nat}
    (here : s.turns[turn]? = some ⟨msg, .waits behind⟩) (free : s.chain.frees behind = true)
    (other : Nat) : ¬ s.Runs other := by
  intro runs
  have := inTurn.runs_last runs
  have := inTurn.starts_next here free
  obtain ⟨stage, there, done⟩ :=
    inTurn.apart.clearBefore (stage_of here) free other (by omega)
  rw [Runs] at runs
  obtain rfl := Option.some.inj (runs.symm.trans there)
  cases done

theorem runs_put (here : s.turns[turn]? = some old) (other : Nat) :
    (s.put turn new).Runs other ↔
      if turn = other then new.phase.stage = .runs else s.Runs other := by
  rw [Runs, Runs, chain_stage, chain_stage, turns_put here]
  split <;> simp

theorem booted (sdk : Bool) : InTurn (boot sdk).1 where
  linked := Linked.new
  apart := Apart.new
  aimed turn := by simp [boot, Runs, chain]
  counted turn := by simp [boot, numberOf]

theorem went (inTurn : InTurn s) {did : ClaudeShim × List ShimEffect} (went : Went host s did)
    (linked : Linked did.1.chain) (apart : Apart did.1.chain) : InTurn did.1 := by
  cases went with
  | begun turn msg behind here free =>
    have next := inTurn.starts_next here free
    constructor
    · exact linked
    · exact apart
    · intro other
      change some turn = some other ↔ (s.put turn _).Runs other
      rw [runs_put here]
      split
      · next same => simp [same, TurnPhase.stage]
      · next apart =>
        constructor
        · exact fun same => absurd (Option.some.inj same) apart
        · exact fun runs => absurd runs (inTurn.starts_alone here free other)
    · intro other
      change (s.put turn _).turns[other]?.bind _ = if other < s.turnCounter + 1 then _ else _
      rw [turns_put here]
      split
      · next same =>
        subst same
        simp [TurnPhase.number, next]
      · next apart =>
        have counted := inTurn.counted other
        rw [numberOf] at counted
        rw [counted]
        have same : other < s.turnCounter + 1 ↔ other < s.turnCounter := by omega
        simp only [same]
  | ended turn msg number aborted result line here =>
    constructor
    · exact linked
    · exact apart
    · intro other
      change none = some other ↔ (s.put turn _).Runs other
      rw [runs_put here]
      split
      · simp [TurnPhase.stage]
      · next apart =>
        constructor
        · intro named
          cases named
        · exact fun runs => absurd (inTurn.apart.alone (stage_of here) runs) apart
    · intro other
      exact (numberOf_put ⟨msg, .finished number⟩ here rfl other).trans (inTurn.counted other)
  | aside t turn lines runs aim count numbers same =>
    constructor
    · exact linked
    · exact apart
    · intro turn
      rw [aim, same, inTurn.aimed]
    · intro turn
      rw [numbers, inTurn.counted, count]

theorem steps (inTurn : InTurn s) (host : ShimHost) {e : ShimEvent}
    (calm : s.exited = false → ∀ m, s.moveOf e = some m → s.chain.Calm m) :
    InTurn (s.step host e) := by
  rw [ClaudeShim.step]
  split
  · exact inTurn
  · next runs =>
    have chain := chain_act host s e
    apply inTurn.went (went_act host s e)
    · rw [chain]
      cases s.moveOf e with
      | none => exact inTurn.linked
      | some m => exact inTurn.linked.move m
    · rw [chain]
      cases moves : s.moveOf e with
      | none => exact inTurn.apart
      | some m => exact inTurn.apart.move inTurn.linked (calm (by simpa using runs) m moves)

end InTurn

/-- What the shim does is all for the last turn that has started. -/
theorem InTurn.acts (inTurn : InTurn s) (host : ShimHost) (e : ShimEvent) :
    s.turnCounter ≤ (s.step host e).turnCounter ∧
      ∀ effect ∈ s.does host e, effect.turn + 1 = (s.step host e).turnCounter := by
  rw [ClaudeShim.step, does]
  split
  · exact ⟨Nat.le_refl _, by simp⟩
  · have went := went_act host s e
    generalize s.act host e = did at went
    cases went with
    | begun turn msg behind here free =>
      have next := inTurn.starts_next here free
      exact ⟨Nat.le_succ _, by simp [runTurn, ShimEffect.turn, next]⟩
    | ended turn msg number aborted result line here =>
      have last := inTurn.runs_last (stage_of here)
      exact ⟨Nat.le_refl _, by simpa [finish, put, ShimEffect.turn] using last⟩
    | aside t turn lines runs aim count numbers same =>
      constructor
      · exact Nat.le_of_eq count.symm
      · intro effect member
        obtain ⟨line, written, rfl⟩ := List.mem_map.mp member
        rcases runs with rfl | runs
        · cases written
        · exact (inTurn.runs_last runs).trans count.symm

/-- Each turn is asked for while the promise of one before it is known, or all before it are
done. -/
def Unhurried (host : ShimHost) (s : ClaudeShim) (events : List ShimEvent) : Prop :=
  ∀ past msg later, events = past ++ .line (some msg) :: later → msg.getStr "op" = some "turn" →
    (after (step host) s past).running ≠ none ∨
      ∀ asked ∈ (after (step host) s past).turns, asked.phase.stage.done = true

theorem unhurried_nil (host : ShimHost) (s : ClaudeShim) : Unhurried host s [] := by
  intro past msg later split
  simp at split

theorem Unhurried.next {e : ShimEvent} {later : List ShimEvent}
    (calm : ∀ msg, e = .line (some msg) → msg.getStr "op" = some "turn" →
      s.running ≠ none ∨ ∀ asked ∈ s.turns, asked.phase.stage.done = true)
    (rest : Unhurried host (step host s e) later) : Unhurried host s (e :: later) := by
  intro past msg after' split op
  cases past with
  | nil =>
    cases split
    exact calm msg rfl op
  | cons first past =>
    cases split
    exact rest past msg after' rfl op

theorem Unhurried.past {past later : List ShimEvent}
    (unhurried : Unhurried host s (past ++ later)) : Unhurried host s past := by
  rintro before msg rest rfl op
  exact unhurried before msg (rest ++ later) (by simp) op

theorem Unhurried.calm {past : List ShimEvent} {e : ShimEvent}
    (unhurried : Unhurried host s (past ++ [e])) {m : Move}
    (moves : (after (step host) s past).moveOf e = some m) :
    (after (step host) s past).chain.Calm m := by
  rintro rfl
  cases e with
  | line msg =>
    cases msg with
    | none => cases moves
    | some msg =>
      rw [moveOf] at moves
      split at moves
      · next asks =>
        apply (unhurried past msg [] rfl asks.2).imp_right
        rintro done stage member
        obtain ⟨asked, here, rfl⟩ := List.mem_map.mp member
        exact done asked here
      · cases moves
  | closes | begins | message | ends | throws | clears | leaves => cases moves

/-- The turns for which the shim does something. -/
def turnsOf (host : ShimHost) (s : ClaudeShim) (e : ShimEvent) : List Nat :=
  (s.does host e).map ShimEffect.turn

theorem reaches_inTurn {events : List ShimEvent} (sdk : Bool)
    (unhurried : Unhurried host (boot sdk).1 events) :
    InTurn (after (step host) (boot sdk).1 events) ∧
      (along (step host) (turnsOf host) (boot sdk).1 events).Pairwise (· ≤ ·) ∧
      ∀ turn ∈ along (step host) (turnsOf host) (boot sdk).1 events,
        turn < (after (step host) (boot sdk).1 events).turnCounter := by
  induction events using List.reverseRecOn with
  | nil => exact ⟨InTurn.booted sdk, .nil, by simp⟩
  | append_singleton past e ih =>
    obtain ⟨inTurn, sorted, within⟩ := ih unhurried.past
    obtain ⟨grows, last⟩ := inTurn.acts host e
    have tagged : ∀ turn ∈ turnsOf host (after (step host) (boot sdk).1 past) e,
        turn + 1 = (step host (after (step host) (boot sdk).1 past) e).turnCounter := by
      intro turn member
      obtain ⟨effect, does, rfl⟩ := List.mem_map.mp member
      exact last effect does
    rw [along_concat, after_concat]
    refine ⟨inTurn.steps host fun _ m moves => unhurried.calm moves, ?_, ?_⟩
    · rw [List.pairwise_append]
      refine ⟨sorted, ?_, ?_⟩
      · apply List.pairwise_of_forall_mem_list
        intro first here second there
        have := tagged first here
        have := tagged second there
        omega
      · intro first here second there
        have := within first here
        have := tagged second there
        omega
    · intro turn member
      rcases List.mem_append.mp member with before | now
      · exact Nat.lt_of_lt_of_le (within turn before) grows
      · have := tagged turn now
        omega

/-- When no turn is asked for too early, one runs at a time, an abort reaches it, turns are
numbered as they were asked for, and all of what is done for one comes before the next. -/
theorem turns_kept_apart (host : ShimHost) (sdk : Bool) (events : List ShimEvent)
    (unhurried : Unhurried host (boot sdk).1 events) :
    let s := after (step host) (boot sdk).1 events
    (∀ first second, s.Runs first → s.Runs second → first = second) ∧
      (∀ turn, s.currentAbort = some turn ↔ s.Runs turn) ∧
      (∀ turn, s.numberOf turn = if turn < s.turnCounter then some (turn + 1) else none) ∧
      (along (step host) (turnsOf host) (boot sdk).1 events).Pairwise (· ≤ ·) := by
  obtain ⟨inTurn, sorted, _⟩ := reaches_inTurn sdk unhurried
  have alone : ∀ first second, _ → _ → first = second := fun _ _ => inTurn.apart.alone
  exact ⟨alone, inTurn.aimed, inTurn.counted, sorted⟩

theorem two_turns_kept_apart :
    let ask : ShimEvent := .line (some (.obj [("op", .str "turn"), ("prompt", .str "hi")]))
    let events := [ask, .begins 0, ask, .ends 0, .clears 0, .begins 1]
    let s := after (step ⟨"/", none⟩) (boot true).1 events
    s.currentAbort = some 1 := by
  intro ask events s
  have runs : s.Runs 1 := by decide +kernel
  have unhurried : Unhurried ⟨"/", none⟩ (boot true).1 events := by
    apply Unhurried.next (fun _ _ _ => .inr (by simp [boot]))
    apply Unhurried.next (by nofun)
    apply Unhurried.next (fun _ _ _ => .inl (by decide))
    apply Unhurried.next (by nofun)
    apply Unhurried.next (by nofun)
    apply Unhurried.next (by nofun)
    exact unhurried_nil _ _
  exact ((turns_kept_apart _ true _ unhurried).2.1 1).mpr runs
end Keeping

section Hurrying
open ClaudeShim
variable {host : ShimHost} {s : ClaudeShim}

/-- What the engine and the promises do by themselves. -/
def ShimEvent.ofTurn : ShimEvent → Bool
  | begins _ | message _ _ | ends _ | throws _ _ | clears _ => true
  | line _ | closes | leaves => false

theorem act_ofTurn (host : ShimHost) (s : ClaudeShim) {e : ShimEvent} (own : e.ofTurn = true) :
    (s.act host e).1.exited = s.exited ∧ (s.act host e).1.awaited = s.awaited := by
  cases e with
  | line | closes | leaves => cases own
  | begins turn =>
    rw [act]
    split
    · split <;> exact ⟨rfl, rfl⟩
    · exact ⟨rfl, rfl⟩
  | message | ends | throws | clears =>
    rw [act]
    split <;> exact ⟨rfl, rfl⟩

/-- The event that makes a move. -/
theorem realizes_move (host : ShimHost) (up : s.exited = false) {m : Move} (other : m ≠ .push) :
    ∃ e : ShimEvent, e.ofTurn = true ∧ (s.step host e).chain = s.chain.move m ∧
      (s.step host e).exited = false ∧ (s.step host e).awaited = s.awaited := by
  obtain ⟨e, own, moves⟩ : ∃ e : ShimEvent, e.ofTurn = true ∧ s.moveOf e = some m := by
    cases m with
    | push => exact absurd rfl other
    | start turn => exact ⟨.begins turn, rfl, rfl⟩
    | finish turn => exact ⟨.ends turn, rfl, rfl⟩
    | clear turn => exact ⟨.clears turn, rfl, rfl⟩
  have steps : s.step host e = (s.act host e).1 := if_neg (by simp [up])
  obtain ⟨exited, awaited⟩ := act_ofTurn host s own
  have chain := chain_act host s e
  rw [moves] at chain
  rw [← steps] at exited awaited chain
  exact ⟨e, own, chain, exited.trans up, awaited⟩

theorem realizes (host : ShimHost) (up : s.exited = false) {moves : List Move}
    (onward : Onward moves) : ∃ events : List ShimEvent, (∀ e ∈ events, e.ofTurn = true) ∧
      (after (step host) s events).chain = after Chain.move s.chain moves ∧
      (after (step host) s events).exited = false ∧
      (after (step host) s events).awaited = s.awaited := by
  induction moves generalizing s with
  | nil => exact ⟨[], by simp, rfl, up, rfl⟩
  | cons m rest ih =>
    obtain ⟨e, own, chain, still, awaited⟩ := realizes_move host up (onward m (by simp))
    obtain ⟨events, owns, chained, ends, kept⟩ :=
      ih still fun m later => onward m (List.mem_cons_of_mem _ later)
    rw [chain] at chained
    rw [awaited] at kept
    exact ⟨e :: events, by simpa [own] using owns, chained, ends, kept⟩

/-- The promises stay linked, and the one that the shim awaits is there. -/
structure Booted (s : ClaudeShim) : Prop where
  linked : Linked s.chain
  awaits : ∀ turn, s.awaited = some (some turn) → turn < s.chain.stages.length

theorem awaited_act (host : ShimHost) (s : ClaudeShim) (e : ShimEvent) :
    (s.act host e).1.awaited = s.awaited ∨ (s.act host e).1.awaited = some s.running := by
  cases e with
  | line msg =>
    rw [act]
    split
    · left
      cases msg with
      | none => rfl
      | some msg =>
        have aborted : s.abort.awaited = s.awaited := by
          unfold abort
          split
          · rfl
          · split <;> rfl
        change (s.handle msg).awaited = s.awaited
        unfold handle
        split
        · rfl
        · exact aborted
        · exact aborted
        · rfl
    · exact .inl rfl
  | closes =>
    rw [act]
    split
    · exact .inr rfl
    · exact .inl rfl
  | begins | message | ends | throws | clears => exact .inl (act_ofTurn host s rfl).2
  | leaves => exact .inl rfl

theorem Booted.step (booted : Booted s) (host : ShimHost) (e : ShimEvent) :
    Booted (s.step host e) := by
  rw [ClaudeShim.step]
  split
  · exact booted
  · have chain := chain_act host s e
    have grows : s.chain.stages.length ≤ (s.act host e).1.chain.stages.length := by
      rw [chain]
      cases s.moveOf e with
      | none => exact Nat.le_refl _
      | some m => exact (move_length s.chain m).1
    constructor
    · rw [chain]
      cases s.moveOf e with
      | none => exact booted.linked
      | some m => exact booted.linked.move m
    · intro turn awaits
      apply Nat.lt_of_lt_of_le _ grows
      rcases awaited_act host s e with same | now
      · exact booted.awaits turn (same ▸ awaits)
      · rw [now] at awaits
        have := booted.linked.last turn (Option.some.inj awaits)
        omega

theorem reaches_booted (host : ShimHost) (sdk : Bool) (events : List ShimEvent) :
    Booted (after (step host) (boot sdk).1 events) := by
  apply always
  · exact ⟨Linked.new, by simp [boot]⟩
  · exact fun s e booted => booted.step host e

/-- When one of two turns that run has ended, no abort reaches the other. -/
theorem ends_beside (host : ShimHost) (up : s.exited = false) {first second : Nat}
    (runsFirst : s.Runs first) (runsSecond : s.Runs second) (differ : first ≠ second) :
    (s.step host (.ends first)).Runs second ∧ (s.step host (.ends first)).currentAbort = none := by
  obtain ⟨msg, number, aborted, result, here⟩ := runs_of_stage runsFirst
  have last : s.step host (.ends first) =
      (s.finish first msg number (some (endMessage result.1 result.2))).1 := by
    rw [ClaudeShim.step, up, act, here]
    rfl
  rw [last]
  constructor
  · exact (InTurn.runs_put here second).mpr (by rwa [if_neg differ])
  · rfl

/-- A turn that is asked for too early can run beside another, and once one of them has ended no
abort reaches the other. -/
theorem hurried_turns_overlap (host : ShimHost) (sdk : Bool) (events : List ShimEvent) :
    let s := after (step host) (boot sdk).1 events
    s.exited = false → s.awaited = none → s.running = none →
    ∀ asked ∈ s.turns, asked.phase.stage.done = false →
    ∀ msg : Json, msg.getStr "op" = some "turn" →
    ∃ more : List ShimEvent, (∀ e ∈ more, e.ofTurn = true) ∧
      ∃ first second, first ≠ second ∧
        let t := after (step host) s (.line (some msg) :: more)
        t.Runs first ∧ t.Runs second ∧
          let u := t.step host (.ends first)
          u.Runs second ∧ u.currentAbort = none := by
  intro s up listens forgotten asked member undone msg op
  have booted : Booted s := reaches_booted host sdk events
  obtain ⟨moves, onward, first, second, differ, runsFirst, runsSecond⟩ :=
    booted.linked.overlaps forgotten (List.mem_map_of_mem member) undone
  have steps : s.step host (.line (some msg)) = s.handle msg := by
    rw [ClaudeShim.step, act, up, listens]
    rfl
  have chain : (s.step host (.line (some msg))).chain = s.chain.move .push := by
    rw [steps, chain_handle, if_pos op]
  have still : (s.step host (.line (some msg))).exited = false := by
    rw [steps, handle, op]
    exact up
  obtain ⟨more, own, chained, ends, _⟩ := realizes host still onward
  rw [← chain, ← chained] at runsFirst runsSecond
  refine ⟨more, own, first, second, differ, runsFirst, runsSecond, ?_⟩
  exact ends_beside host ends runsFirst runsSecond differ

/-- When all turns are settled and the input is closed, the shim leaves. -/
theorem leaves_settled (host : ShimHost) (booted : Booted s) (up : s.exited = false)
    (settled : ∀ stage ∈ s.chain.stages, stage = .cleared) :
    (after (step host) s [.closes, .leaves]).exited = true := by
  have frees : ∀ turn < s.chain.stages.length, s.chain.frees (some turn) = true := by
    intro turn within
    have cleared := settled _ (List.getElem_mem within)
    simp [Chain.frees, List.getElem?_eq_getElem within, cleared]
  have closed : ∃ awaited, s.step host .closes = { s with awaited := some awaited } ∧
      s.chain.frees awaited = true := by
    cases awaits : s.awaited with
    | none =>
      refine ⟨s.running, by simp [ClaudeShim.step, act, up, awaits], ?_⟩
      cases last : s.running with
      | none => rfl
      | some turn =>
        have := booted.linked.last turn last
        exact frees turn (by omega)
    | some awaited =>
      have same : { s with awaited := some awaited } = s := by rw [← awaits]
      refine ⟨awaited, by simp [same, ClaudeShim.step, act, awaits], ?_⟩
      cases awaited with
      | none => rfl
      | some turn => exact frees turn (booted.awaits turn awaits)
  obtain ⟨awaited, closes, free⟩ := closed
  rw [after_cons, closes, after_cons, after_nil, ClaudeShim.step]
  simp only [up, Bool.false_eq_true, if_false]
  exact free

/-- Every turn that has been asked for can be brought to its end, and when they have ended and
the input is closed, the shim leaves. -/
theorem turns_settle (host : ShimHost) (sdk : Bool) (events : List ShimEvent) :
    let s := after (step host) (boot sdk).1 events
    s.exited = false →
    ∃ more : List ShimEvent, (∀ e ∈ more, e.ofTurn = true) ∧
      let t := after (step host) s more
      t.turns.length = s.turns.length ∧ (∀ asked ∈ t.turns, asked.phase.stage = .cleared) ∧
        (after (step host) t [.closes, .leaves]).exited = true := by
  intro s up
  have booted : Booted s := reaches_booted host sdk events
  obtain ⟨moves, onward, settled⟩ := booted.linked.settles
  obtain ⟨more, own, chained, still, _⟩ := realizes host up onward
  have length : (after (step host) s more).chain.stages.length = s.chain.stages.length := by
    rw [chained, onward.length]
  rw [← chained] at settled
  refine ⟨more, own, by simpa [chain] using length, ?_, ?_⟩
  · exact fun asked member => settled _ (List.mem_map_of_mem member)
  · have ended : Booted (after (step host) s more) := by
      rw [← after_inputs_append]
      exact reaches_booted host sdk (events ++ more)
    exact leaves_settled host ended still settled

theorem second_turn_overlaps :
    let msg : Json := .obj [("op", .str "turn"), ("prompt", .str "hi")]
    let ask : ShimEvent := .line (some msg)
    let events := [ask, .begins 0, ask, .ends 0, .clears 0]
    let s := after (step ⟨"/", none⟩) (boot true).1 events
    ∃ more : List ShimEvent, ∃ first second, first ≠ second ∧
      (after (step ⟨"/", none⟩) s (ask :: more)).Runs first ∧
      (after (step ⟨"/", none⟩) s (ask :: more)).Runs second := by
  intro msg ask events s
  have waits : ∃ asked ∈ s.turns, asked.phase.stage.done = false :=
    ⟨_, List.mem_of_getElem? (i := 1) rfl, rfl⟩
  obtain ⟨asked, member, undone⟩ := waits
  obtain ⟨more, _, first, second, differ, runs, beside, _⟩ :=
    hurried_turns_overlap ⟨"/", none⟩ true events rfl rfl rfl asked member undone msg rfl
  exact ⟨more, first, second, differ, runs, beside⟩

theorem one_turn_settles :
    let ask : ShimEvent := .line (some (.obj [("op", .str "turn"), ("prompt", .str "hi")]))
    let s := after (step ⟨"/", none⟩) (boot true).1 [ask]
    ∃ more : List ShimEvent, (∀ e ∈ more, e.ofTurn = true) ∧
      (after (step ⟨"/", none⟩) (after (step ⟨"/", none⟩) s more) [.closes, .leaves]).exited := by
  intro ask s
  obtain ⟨more, own, _, _, leaves⟩ := turns_settle ⟨"/", none⟩ true [ask] rfl
  exact ⟨more, own, leaves⟩

end Hurrying
end Crewd.Engines
