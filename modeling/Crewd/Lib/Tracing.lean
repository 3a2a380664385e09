import Mathlib.Logic.Function.Basic
import Crewd.Lib.Endings

/-! Runs with a record of the sections each thread has been through: their inputs
and the states they ran in. What a thread does next is stated over its own record,
and a condition on the steps of a run may speak of all of them. -/
namespace Concurrent

variable {σ ι κ ε α β : Type}

namespace Process

/-- Every section has its effect and every answer is as described, given the
sections that were visited before. -/
def Along (effect : List (ι × σ) → ι → σ → σ → Prop) (answer : List (ι × σ) → α → Prop) :
    List (ι × σ) → Process σ ι α → Prop
  | visits, .done a => answer visits a
  | visits, .atomic ready act next => ∀ i s, ready i s = true →
      effect visits i s (act i s) ∧ (next i s).Along effect answer (visits ++ [(i, s)])

namespace Along
variable {effect effect' : List (ι × σ) → ι → σ → σ → Prop}
  {answer answer' : List (ι × σ) → α → Prop} {visits : List (ι × σ)} {p : Process σ ι α}

theorem bind {f : α → Process σ ι β} {result : List (ι × σ) → β → Prop}
    (first : p.Along effect answer visits)
    (rest : ∀ visits a, answer visits a → (f a).Along effect result visits) :
    (p >>= f).Along effect result visits := by
  induction p generalizing visits with
  | done a => exact rest visits a first
  | atomic ready act next ih =>
    intro i s runs
    exact ⟨(first i s runs).1, ih i s (first i s runs).2⟩

theorem weaken (effects : ∀ visits i s t, effect visits i s t → effect' visits i s t)
    (answers : ∀ visits a, answer visits a → answer' visits a)
    (along : p.Along effect answer visits) : p.Along effect' answer' visits := by
  induction p generalizing visits with
  | done a => exact answers visits a along
  | atomic ready act next ih =>
    intro i s runs
    exact ⟨effects visits i s _ (along i s runs).1, ih i s (along i s runs).2⟩

/-- What holds whatever is visited from here on. -/
theorem always (effects : ∀ visits i s t, effect visits i s t)
    (answers : ∀ more a, answer (visits ++ more) a) : p.Along effect answer visits := by
  induction p generalizing visits with
  | done a => exact (List.append_nil visits) ▸ answers [] a
  | atomic ready act next ih =>
    refine fun i s _ => ⟨effects visits i s _, ih i s fun more a => ?_⟩
    simpa using answers ((i, s) :: more) a

/-- What does not look at the visits holds whatever they are. -/
theorem anywhere {effect : ι → σ → σ → Prop} {visits' : List (ι × σ)}
    (along : p.Along (fun _ => effect) (fun _ _ => True) visits) :
    p.Along (fun _ => effect) (fun _ _ => True) visits' := by
  induction p generalizing visits visits' with
  | done a => trivial
  | atomic ready act next ih =>
    intro i s runs
    exact ⟨(along i s runs).1, ih i s (along i s runs).2⟩

/-- An effect that looks at no visits is a guarantee under any interference. -/
theorem safe {inv : σ → Prop} {rely guar : σ → σ → Prop}
    (along : p.Along (fun _ _ => guar) answer visits) :
    Safe inv rely guar (fun _ _ => True) p (fun _ => True) := by
  induction p generalizing visits with
  | done a => exact fun _ _ _ => trivial
  | atomic ready act next ih =>
    intro i s _ _ runs
    obtain ⟨moved, later⟩ := along i s runs
    exact ⟨moved, fun _ => True, fun _ _ _ _ => trivial, trivial, ih i s later⟩

theorem waiting {ready : ι → σ → Bool} {f : ι → σ → α × σ}
    (effects : ∀ i s, ready i s = true → effect visits i s (f i s).2)
    (answers : ∀ i s, ready i s = true → answer (visits ++ [(i, s)]) (f i s).1) :
    (Process.waiting ready f).Along effect answer visits :=
  fun i s runs => ⟨effects i s runs, answers i s runs⟩

theorem critical {f : ι → σ → α × σ} (effects : ∀ i s, effect visits i s (f i s).2)
    (answers : ∀ i s, answer (visits ++ [(i, s)]) (f i s).1) :
    (Process.critical f).Along effect answer visits :=
  waiting (fun i s _ => effects i s) fun i s _ => answers i s

theorem step {code : Process σ ι α} (along : p.Along effect answer visits)
    (stepped : p.step i s = some (code, t)) :
    effect visits i s t ∧ code.Along effect answer (visits ++ [(i, s)]) := by
  cases p with
  | done a => simp [Process.step] at stepped
  | atomic ready act next =>
    simp only [Process.step] at stepped
    split at stepped
    · next runs =>
      cases stepped
      exact along i s runs
    · cases stepped

end Along
end Process

/-- A configuration and the sections its tasks have visited. -/
structure Tracked (σ ι κ α : Type) where
  config : Config σ ι κ α
  visits : Nat → List (ι × σ)

/-- What the tasks have visited after a move. -/
def Tracked.visited (t : Tracked σ ι κ α) : Move ι κ ε → Nat → List (ι × σ)
  | .run task i => Function.update t.visits task (t.visits task ++ [(i, t.config.shared)])
  | _ => t.visits

/-- Tracking begins here. -/
def Config.tracked (c : Config σ ι κ α) : Tracked σ ι κ α := ⟨c, fun _ => []⟩

namespace System
variable (sys : System σ ι κ ε α)

def track (t : Tracked σ ι κ α) (action : Move ι κ ε) : Option (Tracked σ ι κ α) :=
  (sys.next t.config action).map fun d => ⟨d, t.visited action⟩

def tracks (t : Tracked σ ι κ α) : List (Move ι κ ε) → Option (Tracked σ ι κ α)
  | [] => some t
  | action :: rest => (sys.track t action).bind fun u => tracks u rest

/-- A run each step of which meets a condition on what was tracked before it. -/
inductive Follows (fits : Tracked σ ι κ α → Move ι κ ε → Prop) :
    Tracked σ ι κ α → Tracked σ ι κ α → Prop where
  | refl (t) : Follows fits t t
  | next : Follows fits t u → fits u action → sys.track u action = some v → Follows fits t v

variable {sys}
variable {fits : Tracked σ ι κ α → Move ι κ ε → Prop} {t u v : Tracked σ ι κ α}

theorem next_of_track (tracked : sys.track u action = some v) :
    sys.next u.config action = some v.config ∧ v.visits = u.visited action := by
  obtain ⟨d, stepped, rfl⟩ := Option.map_eq_some_iff.mp tracked
  exact ⟨stepped, rfl⟩

/-- Only a crash changes whether the service is up. -/
theorem up_of_next {c d : Config σ ι κ α} (stepped : sys.next c action = some d) :
    (∃ i, action = .crash i) ∨ d.up = c.up := by
  cases action with
  | call request =>
    simp only [System.next] at stepped
    split at stepped <;> cases stepped
    exact .inr rfl
  | run task i =>
    simp only [System.next] at stepped
    split at stepped
    · split at stepped
      · obtain ⟨_, _, rfl⟩ := Option.map_eq_some_iff.mp stepped
        exact .inr rfl
      · cases stepped
    · cases stepped
  | main i =>
    simp only [System.next] at stepped
    split at stepped
    · split at stepped
      · cases stepped
        exact .inr rfl
      · obtain ⟨_, _, rfl⟩ := Option.map_eq_some_iff.mp stepped
        exact .inr rfl
    · cases stepped
  | event event =>
    obtain ⟨_, _, rfl⟩ := Option.map_eq_some_iff.mp stepped
    exact .inr rfl
  | crash i => exact .inl ⟨i, rfl⟩

/-- What was visited stays on record, and a section joins it. -/
theorem visits_of_track (tracked : sys.track u action = some v) :
    (∀ k, ∀ x ∈ u.visits k, x ∈ v.visits k) ∧
      ∀ task i, action = .run task i → (i, u.config.shared) ∈ v.visits task := by
  obtain ⟨_, visits⟩ := next_of_track tracked
  rw [visits]
  cases action with
  | run task i =>
    refine ⟨fun k x inside => ?_, ?_⟩
    · by_cases own : k = task
      · subst own
        simp [Tracked.visited, inside]
      · simpa [Tracked.visited, Function.update_of_ne own] using inside
    · rintro _ _ ⟨⟩
      simp [Tracked.visited]
  | _ => exact ⟨fun _ _ inside => inside, nofun⟩

theorem Follows.leads (follows : sys.Follows fits t u) : sys.Leads t.config u.config := by
  induction follows with
  | refl => exact .refl _
  | next _ _ tracked ih => exact ih.next (next_of_track tracked).1

theorem Follows.head (fit : fits t action) (tracked : sys.track t action = some u)
    (follows : sys.Follows fits u v) : sys.Follows fits t v := by
  induction follows with
  | refl => exact .next (.refl t) fit tracked
  | next _ fit' tracked' ih => exact .next ih fit' tracked'

/-- Every run can be tracked. -/
theorem follows_of_leads {c d : Config σ ι κ α} (path : sys.Leads c d) :
    ∃ visits, sys.Follows (fun _ _ => True) c.tracked ⟨d, visits⟩ := by
  induction path with
  | refl => exact ⟨_, .refl _⟩
  | @next d action e _ stepped ih =>
    obtain ⟨visits, follows⟩ := ih
    have tracked : sys.track ⟨d, visits⟩ action =
        some ⟨e, Tracked.visited ⟨d, visits⟩ action⟩ := by
      simp [track, stepped]
    exact ⟨_, follows.next trivial tracked⟩

/-- Whether each of the moves meets the condition, computed along the run. -/
def decideFits (fits : Tracked σ ι κ α → Move ι κ ε → Prop)
    [∀ t action, Decidable (fits t action)] (sys : System σ ι κ ε α) (t : Tracked σ ι κ α) :
    List (Move ι κ ε) → Bool
  | [] => true
  | action :: rest => decide (fits t action) && match sys.track t action with
    | some u => decideFits fits sys u rest
    | none => true

theorem follows_of_tracks [∀ t action, Decidable (fits t action)] {actions : List (Move ι κ ε)}
    (ran : sys.tracks t actions = some u) (fitting : decideFits fits sys t actions = true) :
    sys.Follows fits t u := by
  induction actions generalizing t with
  | nil => cases ran; exact .refl _
  | cons action rest ih =>
    obtain ⟨v, tracked, tail⟩ := Option.bind_eq_some_iff.mp ran
    rw [decideFits, tracked, Bool.and_eq_true, decide_eq_true_eq] at fitting
    exact .head fitting.1 tracked (ih tail fitting.2)

theorem follows_of_ran {actions : List (Move ι κ ε)} (ran : sys.tracks t actions = some u) :
    sys.Follows (fun _ _ => True) t u := by
  induction actions generalizing t with
  | nil => cases ran; exact .refl _
  | cons action rest ih =>
    obtain ⟨v, tracked, tail⟩ := Option.bind_eq_some_iff.mp ran
    exact .head trivial tracked (ih tail)

section Standing
variable {effect : Nat → κ → List (ι × σ) → ι → σ → σ → Prop}
  {answer : Nat → κ → List (ι × σ) → α → Prop}

/-- The tasks called since stand where their own visits have brought them. -/
structure Standing (effect : Nat → κ → List (ι × σ) → ι → σ → σ → Prop)
    (answer : Nat → κ → List (ι × σ) → α → Prop) (since : Nat) (t : Tracked σ ι κ α) : Prop where
  called : since ≤ t.config.pool.length
  unvisited : ∀ k, t.config.pool.length ≤ k → t.visits k = []
  tasks : ∀ k request code, since ≤ k → t.config.pool[k]? = some (request, some code) →
    code.Along (effect k request) (answer k request) (t.visits k)

theorem Standing.next (program : ∀ k request,
      (sys.program k request).Along (effect k request) (answer k request) [])
    (standing : Standing effect answer since u) (tracked : sys.track u action = some v) :
    Standing effect answer since v := by
  obtain ⟨stepped, visits⟩ := next_of_track tracked
  have grown : u.config.pool.length ≤ v.config.pool.length :=
    length_le_of_leads (.next (.refl _) stepped)
  have fresh : ∀ k, v.config.pool.length ≤ k → v.visits k = [] := by
    intro k outside
    rw [visits]
    cases action with
    | run task i =>
      obtain ⟨_, _, _, found, _, _⟩ := run_next stepped
      have inside := (List.getElem?_eq_some_iff.mp found).1
      have other : k ≠ task := by omega
      exact (Function.update_of_ne other _ _).trans (standing.unvisited k (by omega))
    | _ => exact standing.unvisited k (by omega)
  refine ⟨Nat.le_trans standing.called grown, fresh, ?_⟩
  intro k request code later found
  rcases task_next stepped found with was | ⟨before, i, s, rfl, was, ran⟩ | ⟨same, rfl⟩
  · have before := standing.tasks k request code later was
    rw [visits]
    cases action with
    | run task i =>
      by_cases own : k = task
      · subst own
        obtain ⟨_, _, _, found', ran, now⟩ := run_next stepped
        cases found'.symm.trans was
        cases now.symm.trans found
        simpa [Tracked.visited] using (before.step ran).2
      · simpa [Tracked.visited, Function.update_of_ne own] using before
    | _ => exact before
  · rw [visits]
    simpa [Tracked.visited] using ((standing.tasks k request before later was).step ran).2
  · rw [visits]
    have none : u.visits k = [] := standing.unvisited k (Nat.le_of_eq same.symm)
    cases action with
    | run task i =>
      obtain ⟨_, _, _, found', _, _⟩ := run_next stepped
      have inside := (List.getElem?_eq_some_iff.mp found').1
      have other : k ≠ task := by omega
      simpa [Tracked.visited, Function.update_of_ne other, none] using program k request
    | _ => simpa [Tracked.visited, none] using program k request

theorem Standing.follows (program : ∀ k request,
      (sys.program k request).Along (effect k request) (answer k request) [])
    (standing : Standing effect answer since t) (follows : sys.Follows fits t u) :
    Standing effect answer since u := by
  induction follows with
  | refl => exact standing
  | next _ _ tracked ih => exact ih.next program tracked

theorem standing_tracked (c : Config σ ι κ α) :
    Standing effect answer c.pool.length c.tracked := by
  refine ⟨Nat.le_refl _, fun _ _ => rfl, ?_⟩
  intro k request code later found
  have inside := (List.getElem?_eq_some_iff.mp found).1
  exact absurd inside (Nat.not_lt.mpr later)

/-- A move of a task called since has the effect of its section. -/
theorem Standing.moved (standing : Standing effect answer since u)
    (tracked : sys.track u (.run task i) = some v) (later : since ≤ task) :
    ∃ request code code', u.config.pool[task]? = some (request, some code) ∧
      v.config.pool[task]? = some (request, some code') ∧
      v.visits task = u.visits task ++ [(i, u.config.shared)] ∧
      effect task request (u.visits task) i u.config.shared v.config.shared := by
  obtain ⟨stepped, visits⟩ := next_of_track tracked
  obtain ⟨request, code, code', found, ran, now⟩ := run_next stepped
  refine ⟨request, code, code', found, now, ?_, ?_⟩
  · rw [visits]
    exact Function.update_self _ _ _
  · exact ((standing.tasks task request code later found).step ran).1

/-- What is kept by a call, by a section of a task where the run allows it, by what
happens beside the tasks, and by a crash. -/
structure Kept (sys : System σ ι κ ε α) (effect : Nat → κ → List (ι × σ) → ι → σ → σ → Prop)
    (answer : Nat → κ → List (ι × σ) → α → Prop) (aside : σ → σ → Prop)
    (fits : Tracked σ ι κ α → Move ι κ ε → Prop) (P : Tracked σ ι κ α → Prop) : Prop where
  called : ∀ u v request, P u → u.config.up = true → v.config.shared = u.config.shared →
    v.config.up = true → v.config.pool = u.config.pool ++
      [(request, some (sys.program u.config.pool.length request))] → v.visits = u.visits →
    u.visits u.config.pool.length = [] → P v
  ran : ∀ u v task i request code code', P u → fits u (.run task i) → u.config.up = true →
    u.config.pool[task]? = some (request, some code) →
    code.step i u.config.shared = some (code', v.config.shared) →
    effect task request (u.visits task) i u.config.shared v.config.shared →
    code'.Along (effect task request) (answer task request)
      (u.visits task ++ [(i, u.config.shared)]) → v.config.up = true →
    v.config.pool = u.config.pool.set task (request, some code') →
    v.visits = Function.update u.visits task (u.visits task ++ [(i, u.config.shared)]) → P v
  beside : ∀ u v, P u → v.config.up = u.config.up → v.config.pool = u.config.pool →
    v.visits = u.visits → (v.config.shared = u.config.shared ∨ aside u.config.shared v.config.shared) →
    P v
  crashed : ∀ u i, P u → fits u (.crash i) → P ⟨sys.crashed i u.config, u.visits⟩

variable {aside : σ → σ → Prop} {P : Tracked σ ι κ α → Prop}

/-- The background loop has nothing but the effect left to do. -/
def Tends (aside : σ → σ → Prop) (p : Process σ ι Unit) : Prop :=
  p.Along (fun _ _ => aside) (fun _ _ => True) []

theorem Tends.next (loop : Tends aside sys.loop) (main : Tends aside u.config.main)
    (tracked : sys.track u action = some v) : Tends aside v.config.main := by
  obtain ⟨stepped, _⟩ := next_of_track tracked
  obtain ⟨d, visits⟩ := v
  cases action with
  | main i =>
    simp only [System.next] at stepped
    split at stepped
    · split at stepped
      · cases stepped
        exact loop
      · obtain ⟨⟨code, t⟩, ran, rfl⟩ := Option.map_eq_some_iff.mp stepped
        exact (Process.Along.step main ran).2.anywhere
    · cases stepped
  | call request =>
    simp only [System.next] at stepped
    split at stepped <;> cases stepped
    exact main
  | run task i =>
    simp only [System.next] at stepped
    split at stepped
    · split at stepped
      · obtain ⟨_, _, rfl⟩ := Option.map_eq_some_iff.mp stepped
        exact main
      · cases stepped
    · cases stepped
  | event event =>
    obtain ⟨_, _, rfl⟩ := Option.map_eq_some_iff.mp stepped
    exact main
  | crash i =>
    cases stepped
    trivial

theorem Tends.follows (loop : Tends aside sys.loop) (main : Tends aside t.config.main)
    (follows : sys.Follows fits t u) : Tends aside u.config.main := by
  induction follows with
  | refl => exact main
  | next _ _ tracked ih => exact Tends.next loop ih tracked

/-- A move runs a section of a task, moves the state beside the tasks, or is a crash. -/
theorem Standing.move (standing : Standing effect answer 0 u) (main : Tends aside u.config.main)
    (happens : ∀ event s t, sys.happens event s = some t → aside s t)
    (tracked : sys.track u action = some v) :
    (∃ task i request code, action = .run task i ∧
      u.config.pool[task]? = some (request, some code) ∧
      effect task request (u.visits task) i u.config.shared v.config.shared) ∨
    v.config.shared = u.config.shared ∨ aside u.config.shared v.config.shared ∨
    ∃ i, action = .crash i ∧ v.config.shared = (sys.restart i u.config.shared).1 := by
  cases action with
  | run task i =>
    obtain ⟨request, code, _, found, _, _, moved⟩ := standing.moved tracked (Nat.zero_le task)
    exact .inl ⟨task, i, request, code, rfl, found, moved⟩
  | call request =>
    obtain ⟨stepped, _⟩ := next_of_track tracked
    simp only [System.next] at stepped
    split at stepped
    · exact .inr (.inl (congrArg Config.shared (Option.some.inj stepped)).symm)
    · cases stepped
  | main i =>
    obtain ⟨stepped, _⟩ := next_of_track tracked
    simp only [System.next] at stepped
    split at stepped
    · split at stepped
      · exact .inr (.inl (congrArg Config.shared (Option.some.inj stepped)).symm)
      · obtain ⟨⟨code, s⟩, ran, same⟩ := Option.map_eq_some_iff.mp stepped
        rw [← congrArg Config.shared same]
        exact .inr (.inr (.inl (Process.Along.step main ran).1))
    · cases stepped
  | event event =>
    obtain ⟨stepped, _⟩ := next_of_track tracked
    obtain ⟨s, happened, same⟩ := Option.map_eq_some_iff.mp stepped
    rw [← congrArg Config.shared same]
    exact .inr (.inr (.inl (happens event _ _ happened)))
  | crash i =>
    obtain ⟨stepped, _⟩ := next_of_track tracked
    refine .inr (.inr (.inr ⟨i, rfl, ?_⟩))
    exact (congrArg Config.shared (Option.some.inj stepped)).symm

/-- The moves of a run that begins before the first start. -/
theorem move_of_dormant {s : σ}
    (program : ∀ k request, (sys.program k request).Along (effect k request) (answer k request) [])
    (loop : Tends aside sys.loop)
    (happens : ∀ event s t, sys.happens event s = some t → aside s t)
    (follows : sys.Follows fits (dormant s).tracked u) (tracked : sys.track u action = some v) :
    (∃ task i request code, action = .run task i ∧
      u.config.pool[task]? = some (request, some code) ∧
      effect task request (u.visits task) i u.config.shared v.config.shared) ∨
    v.config.shared = u.config.shared ∨ aside u.config.shared v.config.shared ∨
    ∃ i, action = .crash i ∧ v.config.shared = (sys.restart i u.config.shared).1 := by
  have asleep : Tends aside (dormant s : Config σ ι κ α).main := trivial
  have standing := (standing_tracked (dormant s)).follows program follows
  exact standing.move (Tends.follows loop asleep follows) happens tracked

/-- The same where the sections that a task has visited play no part. -/
theorem move_of_reaches {s : σ} {c d : Config σ ι κ α} {own : κ → σ → σ → Prop}
    (program : ∀ k request,
      (sys.program k request).Along (fun _ _ => own request) (fun _ _ => True) [])
    (loop : Tends aside sys.loop)
    (happens : ∀ event s t, sys.happens event s = some t → aside s t)
    (reached : sys.Reaches s c) (stepped : sys.next c action = some d) :
    (∃ task i request code, action = .run task i ∧
      c.pool[task]? = some (request, some code) ∧ own request c.shared d.shared) ∨
    d.shared = c.shared ∨ aside c.shared d.shared ∨
    ∃ i, action = .crash i ∧ d.shared = (sys.restart i c.shared).1 := by
  obtain ⟨visits, follows⟩ := follows_of_leads reached
  have tracked : sys.track ⟨c, visits⟩ action = some ⟨d, Tracked.visited ⟨c, visits⟩ action⟩ := by
    simp [track, stepped]
  exact move_of_dormant program loop happens follows tracked

/-- A section of a task has the effect of its program. -/
theorem run_of_reaches {s : σ} {c d : Config σ ι κ α} {own : κ → σ → σ → Prop}
    (program : ∀ k request,
      (sys.program k request).Along (fun _ _ => own request) (fun _ _ => True) [])
    (reached : sys.Reaches s c) (stepped : sys.next c (.run task i) = some d) :
    ∃ request code, c.pool[task]? = some (request, some code) ∧ own request c.shared d.shared := by
  obtain ⟨visits, follows⟩ := follows_of_leads reached
  have tracked : sys.track ⟨c, visits⟩ (.run task i) =
      some ⟨d, Tracked.visited ⟨c, visits⟩ (.run (ε := ε) task i)⟩ := by
    simp [track, stepped]
  have standing := (standing_tracked (dormant s)).follows program follows
  obtain ⟨request, code, _, found, _, _, moved⟩ := standing.moved tracked (Nat.zero_le task)
  exact ⟨request, code, found, moved⟩

theorem Kept.next (kept : Kept sys effect answer aside fits P) (standing : Standing effect answer 0 u)
    (main : Tends aside u.config.main)
    (happens : ∀ event s t, sys.happens event s = some t → aside s t)
    (tracked : sys.track u action = some v) (fit : fits u action) (holds : P u) : P v := by
  obtain ⟨stepped, visits⟩ := next_of_track tracked
  obtain ⟨d, visited⟩ := v
  cases action with
  | call request =>
    have unvisited := standing.unvisited _ (Nat.le_refl _)
    simp only [System.next] at stepped
    split at stepped
    · next up =>
      cases stepped
      exact kept.called u _ request holds up rfl up rfl visits unvisited
    · cases stepped
  | run task i =>
    simp only [System.next] at stepped
    split at stepped
    · next up =>
      split at stepped
      · next request code found =>
        obtain ⟨⟨code', t⟩, ran, rfl⟩ := Option.map_eq_some_iff.mp stepped
        obtain ⟨moved, along⟩ := (standing.tasks task request code (Nat.zero_le task) found).step ran
        exact kept.ran u _ task i _ _ code' holds fit up found ran moved along up rfl visits
      · cases stepped
    · cases stepped
  | main i =>
    simp only [System.next] at stepped
    split at stepped
    · split at stepped
      · cases stepped
        exact kept.beside u _ holds rfl rfl visits (.inl rfl)
      · obtain ⟨⟨code, t⟩, ran, rfl⟩ := Option.map_eq_some_iff.mp stepped
        exact kept.beside u _ holds rfl rfl visits (.inr (Process.Along.step main ran).1)
    · cases stepped
  | event event =>
    obtain ⟨t, happened, rfl⟩ := Option.map_eq_some_iff.mp stepped
    exact kept.beside u _ holds rfl rfl visits (.inr (happens event _ _ happened))
  | crash i =>
    cases stepped
    cases visits
    exact kept.crashed u i holds fit

/-- The induction over a run that begins before the first start. -/
theorem Kept.follows {s : σ} (kept : Kept sys effect answer aside fits P)
    (program : ∀ k request, (sys.program k request).Along (effect k request) (answer k request) [])
    (loop : Tends aside sys.loop)
    (happens : ∀ event s t, sys.happens event s = some t → aside s t)
    (first : P (dormant s).tracked) (follows : sys.Follows fits (dormant s).tracked u) : P u := by
  have all : Standing effect answer 0 u ∧ Tends aside u.config.main ∧ P u := by
    induction follows with
    | refl => exact ⟨standing_tracked (dormant s), trivial, first⟩
    | next _ fit tracked ih =>
      obtain ⟨standing, main, holds⟩ := ih
      exact ⟨standing.next program tracked, Tends.next loop main tracked,
        kept.next standing main happens tracked fit holds⟩
  exact all.2.2

/-- The tasks that have not finished have always found the present value. -/
def Fixed {β : Type} (f : σ → β) (t : Tracked σ ι κ α) : Prop :=
  ∀ k request ready act next, t.config.pool[k]? = some (request, some (.atomic ready act next)) →
    ∀ v ∈ t.visits k, f v.2 = f t.config.shared

/-- A value that only a crash can change. -/
theorem kept_fixed {β : Type} {f : σ → β}
    (own : ∀ k request visits i s t, effect k request visits i s t → f t = f s)
    (others : ∀ s t, aside s t → f t = f s) : Kept sys effect answer aside fits (Fixed f) where
  called u v request holds _ same _ pool visits unvisited := by
    intro k request' ready act next found visit inside
    rw [visits] at inside
    rw [pool] at found
    rw [same]
    rcases Nat.lt_trichotomy k u.config.pool.length with less | rfl | more
    · rw [List.getElem?_append_left less] at found
      exact holds k request' ready act next found visit inside
    · rw [unvisited] at inside
      cases inside
    · rw [List.getElem?_eq_none (by simp; omega)] at found
      cases found
  ran u v task i request code code' holds _ _ was stepped moved _ _ pool visits := by
    intro k request' ready act next found visit inside
    rw [own _ _ _ _ _ _ moved]
    rw [visits] at inside
    rw [pool] at found
    by_cases self : task = k
    · subst self
      rw [Function.update_self] at inside
      cases code with
      | done a => simp [Process.step] at stepped
      | atomic ready' act' next' =>
        rcases List.mem_append.mp inside with before | now
        · exact holds task request ready' act' next' was visit before
        · cases List.mem_singleton.mp now
          rfl
    · rw [Function.update_of_ne fun same => self same.symm] at inside
      rw [List.getElem?_set_ne self] at found
      exact holds k request' ready act next found visit inside
  beside u v holds _ pool visits moved := by
    intro k request' ready act next found visit inside
    rw [visits] at inside
    rw [pool] at found
    rw [holds k request' ready act next found visit inside]
    rcases moved with same | moved
    · rw [same]
    · exact (others _ _ moved).symm
  crashed u i holds _ := by
    intro k request' ready act next found
    obtain ⟨⟨request, status⟩, _, left⟩ := Option.map_eq_some_iff.mp
      (List.getElem?_map.symm.trans found)
    obtain ⟨code, _, survived⟩ := Option.bind_eq_some_iff.mp (Prod.mk.inj left).2
    cases code <;> cases survived

end Standing
end System
end Concurrent
