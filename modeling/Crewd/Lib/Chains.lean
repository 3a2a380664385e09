import Mathlib.Data.List.Basic
import Mathlib.Data.Nat.Find
import Crewd.Lib.Machine

/-! Tasks behind one another. A new task waits for the one that the tail names and becomes the
tail; but whichever task is cleared, the tail is forgotten. The tasks keep apart as long as none
is pushed while the tail is forgotten and an earlier one goes on, and as soon as one is, two of
them can run at once. -/
namespace Chains
open Machines

/-- How far a task has come. -/
inductive Stage where
  | waits (behind : Option Nat)
  | runs
  | finished
  | cleared
deriving DecidableEq, Repr

namespace Stage

def started : Stage → Bool
  | waits _ => false
  | runs | finished | cleared => true

def done : Stage → Bool
  | waits _ | runs => false
  | finished | cleared => true

theorem started_of_done {stage : Stage} (done : stage.done = true) : stage.started = true := by
  cases stage with
  | waits | runs => cases done
  | finished | cleared => rfl

/-- How many moves a task has before it. -/
def left : Stage → Nat
  | waits _ => 3
  | runs => 2
  | finished => 1
  | cleared => 0

end Stage

structure Chain where
  stages : List Stage
  tail : Option Nat
deriving DecidableEq, Repr

inductive Move where
  | push
  | start (task : Nat)
  | finish (task : Nat)
  | clear (task : Nat)
deriving DecidableEq, Repr

namespace Chain

def new : Chain := ⟨[], none⟩

/-- The one that a task waits for is cleared. -/
def frees (c : Chain) : Option Nat → Bool
  | none => true
  | some task => c.stages[task]? = some Stage.cleared

def mayStart (c : Chain) (task : Nat) : Bool :=
  match c.stages[task]? with
  | some (Stage.waits behind) => c.frees behind
  | _ => false

def move (c : Chain) : Move → Chain
  | .push => ⟨c.stages ++ [.waits c.tail], some c.stages.length⟩
  | .start task =>
    if c.mayStart task then { c with stages := c.stages.set task .runs } else c
  | .finish task =>
    if c.stages[task]? = some Stage.runs then { c with stages := c.stages.set task .finished } else c
  | .clear task =>
    if c.stages[task]? = some Stage.finished then ⟨c.stages.set task .cleared, none⟩ else c

/-- The task is done. -/
def Done (c : Chain) (task : Nat) : Prop :=
  ∃ stage, c.stages[task]? = some stage ∧ stage.done = true

end Chain
open Chain

/-- A push that no task is left out of sight of. -/
def Chain.Calm (c : Chain) (m : Move) : Prop :=
  m = .push → c.tail ≠ none ∨ ∀ stage ∈ c.stages, stage.done = true

/-- Tasks wait for earlier ones, and the tail is the last. -/
structure Linked (c : Chain) : Prop where
  back : ∀ task behind, c.stages[task]? = some (Stage.waits (some behind)) → behind < task
  last : ∀ task, c.tail = some task → task + 1 = c.stages.length

/-- A task starts once all before it are done, and waits for the one before it if they are not. -/
structure Apart (c : Chain) : Prop where
  behind : ∀ earlier task stage, earlier < task → c.stages[task]? = some stage →
    stage.started = true → c.Done earlier
  queued : ∀ task waits, c.stages[task]? = some (Stage.waits waits) →
    waits.map (· + 1) = some task ∨ ∀ earlier < task, c.Done earlier

section Moves
variable {c d : Chain} {task : Nat} {old next : Stage}

/-- One task goes on to its next stage. -/
inductive Goes (c : Chain) (task : Nat) : Stage → Stage → Chain → Prop where
  | start (behind : Option Nat) (free : c.frees behind = true) :
      Goes c task (.waits behind) .runs { c with stages := c.stages.set task .runs }
  | finish : Goes c task .runs .finished { c with stages := c.stages.set task .finished }
  | clear : Goes c task .finished .cleared ⟨c.stages.set task .cleared, none⟩

/-- What a move comes to: nothing, one task more, or one task further on. -/
inductive Moved (c : Chain) : Move → Chain → Prop where
  | still {m : Move} : Moved c m c
  | pushed : Moved c .push ⟨c.stages ++ [.waits c.tail], some c.stages.length⟩
  | goes {m : Move} {task : Nat} {old next : Stage} {d : Chain} (other : m ≠ .push)
      (here : c.stages[task]? = some old) (goes : Goes c task old next d) : Moved c m d

theorem move_moved (c : Chain) (m : Move) : Moved c m (c.move m) := by
  cases m with
  | push => exact .pushed
  | start task =>
    change Moved c _ (if c.mayStart task then _ else c)
    split
    · next may =>
      unfold mayStart at may
      split at may
      · next behind here => exact .goes (by simp) here (.start behind may)
      · cases may
    · exact .still
  | finish task =>
    change Moved c _ (if c.stages[task]? = some Stage.runs then _ else c)
    split
    · next here => exact .goes (by simp) here .finish
    · exact .still
  | clear task =>
    change Moved c _ (if c.stages[task]? = some Stage.finished then _ else c)
    split
    · next here => exact .goes (by simp) here .clear
    · exact .still

theorem goes_start {behind : Option Nat} (here : c.stages[task]? = some (Stage.waits behind))
    (free : c.frees behind = true) : Goes c task (.waits behind) .runs (c.move (.start task)) := by
  have may : c.mayStart task = true := by simpa [mayStart, here] using free
  rw [Chain.move, if_pos may]
  exact .start behind free

theorem goes_finish (here : c.stages[task]? = some Stage.runs) :
    Goes c task .runs .finished (c.move (.finish task)) := by
  rw [Chain.move, if_pos here]
  exact .finish

theorem goes_clear (here : c.stages[task]? = some Stage.finished) :
    Goes c task .finished .cleared (c.move (.clear task)) := by
  rw [Chain.move, if_pos here]
  exact .clear

theorem Goes.stages (goes : Goes c task old next d) : d.stages = c.stages.set task next := by
  cases goes <;> rfl

/-- The stages after a task has gone on. -/
theorem Goes.stage (goes : Goes c task old next d) (here : c.stages[task]? = some old)
    (other : Nat) :
    d.stages[other]? = if task = other then some next else c.stages[other]? := by
  obtain ⟨within, _⟩ := List.getElem?_eq_some_iff.mp here
  rw [goes.stages, List.getElem?_set]
  split
  · simp
  · rfl

theorem Goes.left (goes : Goes c task old next d) : next.left < old.left := by
  cases goes <;> simp [Stage.left]

/-- What is done stays done. -/
theorem Goes.done (goes : Goes c task old next d) (here : c.stages[task]? = some old)
    {other : Nat} (done : c.Done other) : d.Done other := by
  obtain ⟨stage, there, finished⟩ := done
  rw [Done]
  rw [goes.stage here]
  by_cases same : task = other
  · subst same
    obtain rfl := Option.some.inj (here.symm.trans there)
    rw [if_pos rfl]
    cases goes with
    | start | finish => cases finished
    | clear => exact ⟨_, rfl, rfl⟩
  · rw [if_neg same]
    exact ⟨stage, there, finished⟩

theorem done_push (waits : Option Nat) {other : Nat} (done : c.Done other) :
    Done ⟨c.stages ++ [.waits waits], d.tail⟩ other := by
  obtain ⟨stage, there, finished⟩ := done
  obtain ⟨within, _⟩ := List.getElem?_eq_some_iff.mp there
  exact ⟨stage, by rw [List.getElem?_append_left within, there], finished⟩

/-- A stage after a push is one before it, or that of the new task. -/
theorem stage_push {waits : Option Nat} {stage : Stage}
    (there : (c.stages ++ [.waits waits])[task]? = some stage) :
    c.stages[task]? = some stage ∨ (task = c.stages.length ∧ stage = .waits waits) := by
  rcases Nat.lt_or_ge task c.stages.length with within | beyond
  · rw [List.getElem?_append_left within] at there
    exact .inl there
  · rw [List.getElem?_append_right beyond] at there
    obtain ⟨bound, same⟩ := List.getElem?_eq_some_iff.mp there
    rw [List.length_singleton] at bound
    exact .inr ⟨by omega, by simpa using same.symm⟩

end Moves

section Invariants
variable {c d : Chain} {m : Move}

theorem Linked.new : Linked Chain.new where
  back := by simp [Chain.new]
  last := by simp [Chain.new]

theorem Linked.move (linked : Linked c) (m : Move) : Linked (c.move m) := by
  have moved := move_moved c m
  generalize c.move m = d at moved ⊢
  cases moved with
  | still => exact linked
  | pushed =>
    constructor
    · intro task behind there
      rcases stage_push there with old | ⟨rfl, new⟩
      · exact linked.back task behind old
      · have last := linked.last behind (Stage.waits.inj new).symm
        omega
    · rintro task ⟨⟩
      simp
  | goes _ here goes =>
    constructor
    · intro other behind there
      rw [goes.stage here] at there
      split at there
      · cases goes <;> cases there
      · exact linked.back other behind there
    · intro other last
      rw [goes.stages, List.length_set]
      cases goes with
      | start | finish => exact linked.last other last
      | clear => cases last

theorem Apart.new : Apart Chain.new where
  behind := by simp [Chain.new]
  queued := by simp [Chain.new]

theorem Apart.push (apart : Apart c) (linked : Linked c) (calm : Calm c .push) :
    Apart (c.move .push) := by
  constructor
  · intro earlier task stage before there started
    rcases stage_push there with old | ⟨_, rfl⟩
    · exact done_push (d := c.move .push) _ (apart.behind earlier task stage before old started)
    · cases started
  · intro task waits there
    rcases stage_push there with old | ⟨rfl, new⟩
    · exact (apart.queued task waits old).imp_right fun all earlier before =>
        done_push (d := c.move .push) _ (all earlier before)
    · obtain rfl := Stage.waits.inj new
      rcases calm rfl with kept | done
      · obtain ⟨task, named⟩ := Option.ne_none_iff_exists'.mp kept
        left
        rw [named, Option.map_some, linked.last task named]
      · right
        intro earlier before
        apply done_push (d := c.move .push)
        exact ⟨_, List.getElem?_eq_getElem before, done _ (List.getElem_mem before)⟩

/-- When a task may start, all tasks before it are done. -/
theorem Apart.clearBefore (apart : Apart c) {task : Nat} {waits : Option Nat}
    (here : c.stages[task]? = some (Stage.waits waits)) (free : c.frees waits = true) :
    ∀ earlier < task, c.Done earlier := by
  intro earlier before
  rcases apart.queued task waits here with next | all
  · obtain ⟨front, named, rfl⟩ := Option.map_eq_some_iff.mp next
    subst named
    have cleared : c.stages[front]? = some Stage.cleared := by simpa [frees] using free
    rcases Nat.lt_or_ge earlier front with further | same
    · exact apart.behind earlier front .cleared further cleared rfl
    · obtain rfl : earlier = front := by omega
      exact ⟨.cleared, cleared, rfl⟩
  · exact all earlier before

theorem Apart.goes (apart : Apart c) {task : Nat} {old next : Stage}
    (here : c.stages[task]? = some old) (goes : Goes c task old next d) : Apart d := by
  constructor
  · intro earlier other stage before there started
    apply goes.done here
    rw [goes.stage here] at there
    split at there
    · next same =>
      subst same
      cases goes with
      | start waits free => exact apart.clearBefore here free earlier before
      | finish | clear => exact apart.behind earlier task _ before here rfl
    · exact apart.behind earlier other stage before there started
  · intro other waits there
    rw [goes.stage here] at there
    split at there
    · cases goes <;> cases there
    · exact (apart.queued other waits there).imp_right fun all earlier before =>
        goes.done here (all earlier before)

theorem Apart.move (apart : Apart c) (linked : Linked c) (calm : Calm c m) :
    Apart (c.move m) := by
  have moved := move_moved c m
  generalize result : c.move m = d at moved ⊢
  cases moved with
  | still => exact apart
  | pushed => exact result ▸ apart.push linked calm
  | goes other here goes => exact apart.goes here goes

/-- Of tasks that keep apart no two run at once. -/
theorem Apart.alone (apart : Apart c) {first second : Nat}
    (here : c.stages[first]? = some Stage.runs) (there : c.stages[second]? = some Stage.runs) :
    first = second := by
  have never : ∀ {earlier later : Nat}, c.stages[earlier]? = some Stage.runs →
      c.stages[later]? = some Stage.runs → ¬ earlier < later := by
    intro earlier later runs other before
    obtain ⟨stage, same, done⟩ := apart.behind earlier later .runs before other rfl
    obtain rfl := Option.some.inj (runs.symm.trans same)
    cases done
  have := never here there
  have := never there here
  omega

/-- No move takes a task away, and only a push adds one. -/
theorem move_length (c : Chain) (m : Move) : c.stages.length ≤ (c.move m).stages.length ∧
    (m ≠ .push → (c.move m).stages.length = c.stages.length) := by
  have moved := move_moved c m
  generalize c.move m = d at moved ⊢
  cases moved with
  | still => exact ⟨Nat.le_refl _, fun _ => rfl⟩
  | pushed => exact ⟨by simp, fun other => absurd rfl other⟩
  | goes _ _ goes =>
    rw [goes.stages, List.length_set]
    exact ⟨Nat.le_refl _, fun _ => rfl⟩

end Invariants

section Overlaps
variable {c : Chain}

/-- All but a push. -/
def Onward (moves : List Move) : Prop := ∀ m ∈ moves, m ≠ .push

theorem Onward.length {moves : List Move} (onward : Onward moves) :
    (after Chain.move c moves).stages.length = c.stages.length := by
  induction moves generalizing c with
  | nil => rfl
  | cons m rest ih =>
    rw [after_cons, ih fun m later => onward m (List.mem_cons_of_mem _ later)]
    exact (move_length c m).2 (onward m (by simp))

theorem exists_first {p : Nat → Prop} (n : Nat) (holds : p n) :
    ∃ first, p first ∧ ∀ earlier < first, ¬ p earlier := by
  classical
  exact ⟨Nat.find ⟨n, holds⟩, Nat.find_spec ⟨n, holds⟩, fun _ before => Nat.find_min _ before⟩

/-- The first task that is not done can be brought to run. -/
theorem Linked.brings (linked : Linked c) {task : Nat} (within : task < c.stages.length)
    (first : ∀ earlier < task, c.Done earlier) (undone : ¬ c.Done task) :
    ∃ moves, Onward moves ∧ (after Chain.move c moves).stages[task]? = some Stage.runs ∧
      ∀ other : Nat, c.stages[other]? = some Stage.runs →
        (after Chain.move c moves).stages[other]? = some Stage.runs := by
  have here := List.getElem?_eq_getElem within
  generalize c.stages[task] = stage at here
  have begins : ∀ {d : Chain} {behind : Option Nat},
      d.stages[task]? = some (Stage.waits behind) → d.frees behind = true →
      (d.move (.start task)).stages[task]? = some Stage.runs ∧
      ∀ other : Nat, d.stages[other]? = some Stage.runs →
        (d.move (.start task)).stages[other]? = some Stage.runs := by
    intro d behind waits free
    have goes := goes_start waits free
    refine ⟨by rw [goes.stage waits, if_pos rfl], fun other runs => ?_⟩
    rw [goes.stage waits]
    split
    · rfl
    · exact runs
  cases stage with
  | finished => exact absurd ⟨_, here, rfl⟩ undone
  | cleared => exact absurd ⟨_, here, rfl⟩ undone
  | runs => exact ⟨[], by simp [Onward], here, fun other runs => runs⟩
  | waits behind =>
    by_cases free : c.frees behind = true
    · obtain ⟨runs, kept⟩ := begins here free
      exact ⟨[.start task], by simp [Onward], runs, kept⟩
    · cases behind with
      | none => exact absurd rfl free
      | some front =>
        have before := linked.back task front here
        obtain ⟨stage, there, done⟩ := first front before
        cases stage with
        | waits | runs => cases done
        | cleared => exact absurd (by simp [frees, there]) free
        | finished =>
          have goes := goes_clear there
          have still : ∀ other : Nat, c.stages[other]? = some Stage.runs →
              (c.move (.clear front)).stages[other]? = some Stage.runs := by
            intro other runs
            rw [goes.stage there, if_neg]
            · exact runs
            · rintro rfl
              cases there.symm.trans runs
          have waits : (c.move (.clear front)).stages[task]? = some (Stage.waits (some front)) := by
            rw [goes.stage there, if_neg (by omega), here]
          have freed : (c.move (.clear front)).frees (some front) = true := by
            simp [frees, goes.stage there]
          obtain ⟨runs, kept⟩ := begins waits freed
          exact ⟨[.clear front, .start task], by simp [Onward], runs,
            fun other runs => kept other (still other runs)⟩

/-- A task that is pushed while the tail is forgotten can run beside one that is not done. -/
theorem Linked.overlaps (linked : Linked c) (forgotten : c.tail = none) {stage : Stage}
    (open' : stage ∈ c.stages) (undone : stage.done = false) :
    ∃ moves, Onward moves ∧ ∃ first second : Nat, first ≠ second ∧
      (after Chain.move (c.move .push) moves).stages[first]? = some Stage.runs ∧
      (after Chain.move (c.move .push) moves).stages[second]? = some Stage.runs := by
  obtain ⟨n, within, rfl⟩ := List.getElem_of_mem open'
  have unfinished : n < c.stages.length ∧ ¬ c.Done n := by
    refine ⟨within, fun done => ?_⟩
    obtain ⟨stage, there, finished⟩ := done
    rw [List.getElem?_eq_getElem within] at there
    obtain rfl := Option.some.inj there
    rw [undone] at finished
    cases finished
  obtain ⟨task, ⟨inside, going⟩, least⟩ :=
    exists_first (p := fun n => n < c.stages.length ∧ ¬ c.Done n) n unfinished
  have pushed : (c.move .push).stages = c.stages ++ [.waits none] := by
    rw [Chain.move, forgotten]
  have newcomer : (c.move .push).stages[c.stages.length]? = some (Stage.waits none) := by
    rw [pushed, List.getElem?_append_right (Nat.le_refl _), Nat.sub_self]
    rfl
  have goes := goes_start newcomer rfl
  have old : ∀ other < c.stages.length,
      ((c.move .push).move (.start c.stages.length)).stages[other]? = c.stages[other]? := by
    intro other before
    rw [goes.stage newcomer, if_neg (by omega), pushed, List.getElem?_append_left before]
  have first : ∀ earlier < task, ((c.move .push).move (.start c.stages.length)).Done earlier := by
    intro earlier before
    have done : c.Done earlier := by
      by_contra going
      exact least earlier before ⟨by omega, going⟩
    unfold Done at done ⊢
    rwa [old earlier (by omega)]
  have undone : ¬ ((c.move .push).move (.start c.stages.length)).Done task := by
    unfold Done at going ⊢
    rwa [old task inside]
  obtain ⟨moves, onward, runs, kept⟩ := ((linked.move .push).move (.start _)).brings
    (by rw [goes.stages, pushed]; simp; omega) first undone
  refine ⟨.start c.stages.length :: moves, ?_, task, c.stages.length, by omega, runs, ?_⟩
  · simpa [Onward] using onward
  · exact kept _ (by rw [goes.stage newcomer, if_pos rfl])

end Overlaps

section Endings
variable {c : Chain}

def movesLeft : List Stage → Nat
  | [] => 0
  | stage :: rest => stage.left + movesLeft rest

theorem movesLeft_set {stages : List Stage} {task : Nat} {old next : Stage}
    (here : stages[task]? = some old) (less : next.left < old.left) :
    movesLeft (stages.set task next) < movesLeft stages := by
  induction stages generalizing task with
  | nil => cases here
  | cons stage rest ih =>
    cases task with
    | zero =>
      obtain rfl := Option.some.inj here
      exact Nat.add_lt_add_right less _
    | succ task => exact Nat.add_lt_add_left (ih here) _

theorem Goes.left_lt {d : Chain} {task : Nat} {old next : Stage} (goes : Goes c task old next d)
    (here : c.stages[task]? = some old) : movesLeft d.stages < movesLeft c.stages := by
  rw [goes.stages]
  exact movesLeft_set here goes.left

/-- The first task that is not cleared can go on. -/
theorem Linked.advances (linked : Linked c) {task : Nat} {stage : Stage}
    (here : c.stages[task]? = some stage) (uncleared : stage ≠ .cleared)
    (first : ∀ earlier < task, c.stages[earlier]? = some Stage.cleared) :
    ∃ m next, m ≠ .push ∧ Goes c task stage next (c.move m) := by
  cases stage with
  | cleared => exact absurd rfl uncleared
  | finished => exact ⟨_, _, by simp, goes_clear here⟩
  | runs => exact ⟨_, _, by simp, goes_finish here⟩
  | waits behind =>
    refine ⟨_, _, by simp, goes_start here ?_⟩
    cases behind with
    | none => rfl
    | some front => simpa [frees] using first front (linked.back task front here)

/-- Every task can be brought to its end. -/
theorem Linked.settles (linked : Linked c) : ∃ moves, Onward moves ∧
    ∀ stage ∈ (after Chain.move c moves).stages, stage = .cleared := by
  induction bound : movesLeft c.stages using Nat.strong_induction_on generalizing c with
  | _ n ih =>
    by_cases settled : ∀ stage ∈ c.stages, stage = .cleared
    · exact ⟨[], by simp [Onward], settled⟩
    · obtain ⟨stage, member, uncleared⟩ : ∃ stage ∈ c.stages, stage ≠ .cleared := by
        simpa using settled
      obtain ⟨n, within, rfl⟩ := List.getElem_of_mem member
      obtain ⟨task, ⟨stage, here, open'⟩, least⟩ := exists_first
        (p := fun n => ∃ stage, c.stages[n]? = some stage ∧ stage ≠ .cleared) n
        ⟨_, List.getElem?_eq_getElem within, uncleared⟩
      obtain ⟨inside, _⟩ := List.getElem?_eq_some_iff.mp here
      have first : ∀ earlier < task, c.stages[earlier]? = some Stage.cleared := by
        intro earlier before
        have there := List.getElem?_eq_getElem (Nat.lt_trans before inside)
        by_contra uncleared
        apply least earlier before
        exact ⟨_, there, fun cleared => uncleared (cleared ▸ there)⟩
      obtain ⟨m, next, other, goes⟩ := linked.advances here open' first
      obtain ⟨moves, onward, ended⟩ := ih _ (bound ▸ goes.left_lt here) (linked.move m) rfl
      refine ⟨m :: moves, ?_, ended⟩
      rintro _ (_ | ⟨_, later⟩)
      · exact other
      · exact onward _ later

end Endings
end Chains
