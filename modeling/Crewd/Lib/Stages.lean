import Crewd.Lib.Tracing

/-! The stages of one call: its sections in order, each with its input and with the states
that it found and left. What others did between two of them is left open, so a statement
about the stages of a call holds under any interleaving. -/
namespace Concurrent

variable {σ ι κ ε α β : Type}

/-- A section as it was run. -/
structure Stage (σ ι : Type) where
  input : ι
  before : σ
  after : σ

/-- What the sections were given and found. -/
def visited (stages : List (Stage σ ι)) : List (ι × σ) :=
  stages.map fun stage => (stage.input, stage.before)

namespace Process

/-- The thread can go through these stages to this answer. -/
inductive Takes : Process σ ι α → List (Stage σ ι) → α → Prop where
  | done (a) : Takes (.done a) [] a
  | atomic (i s) : ready i s = true → Takes (next i s) stages a →
      Takes (.atomic ready act next) (⟨i, s, act i s⟩ :: stages) a

namespace Takes
variable {p : Process σ ι α} {stages : List (Stage σ ι)}

theorem of_done (takes : (Process.done b : Process σ ι α).Takes stages a) : stages = [] ∧ a = b := by
  cases takes
  exact ⟨rfl, rfl⟩

/-- The stages of a part and those of what follows its answer. -/
theorem of_bind {f : α → Process σ ι β} {b : β} (takes : (p >>= f).Takes stages b) :
    ∃ first rest a, stages = first ++ rest ∧ p.Takes first a ∧ (f a).Takes rest b := by
  induction p generalizing stages with
  | done a => exact ⟨[], stages, a, rfl, .done a, takes⟩
  | atomic ready act next ih =>
    cases takes with
    | atomic i s runs later =>
      obtain ⟨first, rest, a, rfl, takes, last⟩ := ih i s later
      exact ⟨_ :: first, rest, a, rfl, .atomic i s runs takes, last⟩

theorem of_waiting {ready : ι → σ → Bool} {f : ι → σ → α × σ}
    (takes : (Process.waiting ready f).Takes stages a) :
    ∃ i s, ready i s = true ∧ stages = [⟨i, s, (f i s).2⟩] ∧ a = (f i s).1 := by
  cases takes with
  | atomic i s runs later =>
    cases later
    exact ⟨i, s, runs, rfl, rfl⟩

theorem of_critical {f : ι → σ → α × σ} (takes : (Process.critical f).Takes stages a) :
    ∃ i s, stages = [⟨i, s, (f i s).2⟩] ∧ a = (f i s).1 := by
  obtain ⟨i, s, _, taken⟩ := takes.of_waiting
  exact ⟨i, s, taken⟩

/-- Each stage has the effect that is due after those before it, and the answer is as described. -/
theorem along {effect : List (ι × σ) → ι → σ → σ → Prop} {answer : List (ι × σ) → α → Prop}
    {visits : List (ι × σ)} (takes : p.Takes stages a) (along : p.Along effect answer visits) :
    (∀ before stage after, stages = before ++ stage :: after →
      effect (visits ++ visited before) stage.input stage.before stage.after) ∧
    answer (visits ++ visited stages) a := by
  induction takes generalizing visits with
  | done a =>
    constructor
    · intro before stage after none
      simp at none
    · rw [visited, List.map_nil, List.append_nil]
      exact along
  | atomic i s runs _ ih =>
    obtain ⟨here, later⟩ := along i s runs
    obtain ⟨effects, answered⟩ := ih later
    constructor
    · intro before stage after whole
      cases before with
      | nil =>
        obtain ⟨rfl, _⟩ := List.cons.inj whole
        rw [visited, List.map_nil, List.append_nil]
        exact here
      | cons first before =>
        obtain ⟨rfl, split⟩ := List.cons.inj whole
        have effect := effects before stage after split
        rwa [List.append_assoc] at effect
    · rwa [List.append_assoc] at answered

end Takes
end Process

namespace System
variable {sys : System σ ι κ ε α}

/-- A move of the task ran this section. -/
def Stages (sys : System σ ι κ ε α) (task : Nat) (stage : Stage σ ι) (b b' : Config σ ι κ α) :
    Prop :=
  sys.next b (.run task stage.input) = some b' ∧ b.shared = stage.before ∧ b'.shared = stage.after

/-- On the way to the configuration the task was called and has gone through the stages. -/
inductive Went (sys : System σ ι κ ε α) (start : σ) (task : Nat) (request : κ) :
    List (Stage σ ι) → Config σ ι κ α → Prop where
  | called : sys.Reaches start c → task = c.pool.length → sys.next c (.call request) = some d →
      Went sys start task request [] d
  | beside : Went sys start task request stages c → (∀ i, action ≠ .run task i) →
      sys.next c action = some d → Went sys start task request stages d
  | moved : Went sys start task request stages c → sys.Stages task stage c d →
      Went sys start task request (stages ++ [stage]) d

/-- The task has answered the request after these stages. -/
structure Took (sys : System σ ι κ ε α) (start : σ) (task : Nat) (request : κ)
    (stages : List (Stage σ ι)) (a : α) (c : Config σ ι κ α) : Prop where
  went : sys.Went start task request stages c
  takes : (sys.program task request).Takes stages a
  answered : c.pool[task]? = some (request, some (.done a))

theorem Went.reached (went : sys.Went start task request stages c) : sys.Reaches start c := by
  induction went with
  | called reached _ stepped => exact reached.next stepped
  | beside _ _ stepped ih => exact ih.next stepped
  | moved _ stage ih => exact ih.next stage.1

theorem Went.inside (went : sys.Went start task request stages c) : task < c.pool.length := by
  induction went with
  | called _ same stepped =>
    subst same
    exact (List.getElem?_eq_some_iff.mp (call_next stepped)).1
  | beside _ _ stepped ih =>
    rcases length_next stepped with ⟨_, _, longer⟩ | still
    · omega
    · omega
  | moved _ stage ih =>
    rcases length_next stage.1 with ⟨_, _, longer⟩ | still
    · omega
    · omega

/-- Each stage is a move of the run, and the later ones are later moves. -/
theorem Went.split {before after : List (Stage σ ι)}
    (went : sys.Went start task request (before ++ stage :: after) c) : ∃ b b',
      sys.Reaches start b ∧ sys.Stages task stage b b' ∧ sys.Leads b' c ∧
      ∀ later ∈ after, ∃ e e', sys.Leads b' e ∧ sys.Stages task later e e' := by
  generalize whole : before ++ stage :: after = stages at went
  induction went generalizing after with
  | called => simp at whole
  | beside _ _ stepped ih =>
    obtain ⟨b, b', reached, staged, leads, rest⟩ := ih whole
    exact ⟨b, b', reached, staged, leads.next stepped, rest⟩
  | @moved stages c last d went staged ih =>
    rcases List.eq_nil_or_concat after with rfl | ⟨more, last', rfl⟩
    · obtain ⟨_, same⟩ := List.append_inj' whole rfl
      obtain rfl := List.singleton_inj.mp same
      exact ⟨c, d, went.reached, staged, .refl d, by simp⟩
    · have shape : (before ++ stage :: more) ++ [last'] = stages ++ [last] := by simpa using whole
      obtain ⟨rfl, same⟩ := List.append_inj' shape rfl
      simp only [List.cons.injEq, and_true] at same
      subst same
      obtain ⟨b, b', reached, here, leads, rest⟩ := ih rfl
      refine ⟨b, b', reached, here, leads.next staged.1, fun later member => ?_⟩
      rw [List.concat_eq_append] at member
      rcases List.mem_append.mp member with old | new
      · exact rest later old
      · obtain rfl := List.mem_singleton.mp new
        exact ⟨c, d, leads, staged⟩

/-- What is left of a task completes the stages it has gone through. -/
theorem Went.completes {c : Config σ ι κ α} {code : Process σ ι α}
    (went : sys.Went start task request stages c)
    (found : c.pool[task]? = some (request', some code)) : request' = request ∧
      ∀ more a, code.Takes more a → (sys.program task request).Takes (stages ++ more) a := by
  induction went generalizing code with
  | called _ same stepped =>
    subst same
    cases (call_next stepped).symm.trans found
    exact ⟨rfl, fun more a takes => takes⟩
  | beside went other stepped ih =>
    rcases task_next stepped found with was | ⟨_, i, _, same, _⟩ | ⟨new, _⟩
    · exact ih was
    · exact absurd same (other i)
    · have inside := went.inside
      omega
  | @moved stages c stage d _ staged ih =>
    obtain ⟨i, b, b'⟩ := stage
    obtain ⟨stepped, rfl, rfl⟩ := staged
    obtain ⟨_, code₀, _, was, ran, now⟩ := run_next stepped
    cases now.symm.trans found
    obtain ⟨rfl, completes⟩ := ih was
    refine ⟨rfl, fun more a takes => ?_⟩
    rw [List.append_assoc]
    apply completes
    cases code₀ with
    | done b => simp [Process.step] at ran
    | atomic ready act next =>
      simp only [Process.step] at ran
      split at ran
      · rename_i runs
        obtain ⟨rfl, left⟩ := Prod.mk.inj (Option.some.inj ran)
        simp only [← left]
        exact .atomic i c.shared runs takes
      · cases ran

theorem Went.took {c : Config σ ι κ α} {a : α} (went : sys.Went start task request stages c)
    (answered : c.answer task = some a) : sys.Took start task request stages a c := by
  obtain ⟨request', answered⟩ := Config.answer_eq_some.mp answered
  obtain ⟨rfl, completes⟩ := went.completes answered
  refine ⟨went, ?_, answered⟩
  have takes := completes [] a (.done a)
  rwa [List.append_nil] at takes

/-- What a move adds to the stages of a task. -/
def stagesOf (task : Nat) (c d : Config σ ι κ α) : Move ι κ ε → List (Stage σ ι)
  | .run k i => if k = task then [⟨i, c.shared, d.shared⟩] else []
  | _ => []

theorem Went.after {action : Move ι κ ε} (went : sys.Went start task request stages c)
    (stepped : sys.next c action = some d) :
    sys.Went start task request (stages ++ stagesOf task c d action) d := by
  by_cases own : ∃ i, action = .run task i
  · obtain ⟨i, rfl⟩ := own
    rw [stagesOf, if_pos rfl]
    exact went.moved ⟨stepped, rfl, rfl⟩
  · have none : stagesOf task c d action = [] := by
      cases action with
      | run k i => exact if_neg fun same => own ⟨i, by rw [same]⟩
      | _ => rfl
    rw [none, List.append_nil]
    exact went.beside (fun i same => own ⟨i, same⟩) stepped

/-- A task that has not been lost has gone through stages. -/
theorem went_of_reaches {c : Config σ ι κ α} {code : Process σ ι α} (path : sys.Reaches s c)
    (found : c.pool[task]? = some (request, some code)) :
    ∃ stages, sys.Went s task request stages c := by
  induction path generalizing code with
  | refl => simp [dormant] at found
  | @next u action v before stepped ih =>
    rcases task_next stepped found with was | ⟨code₀, i, t, rfl, was, _⟩ | ⟨new, _⟩
    · obtain ⟨stages, went⟩ := ih was
      exact ⟨_, went.after stepped⟩
    · obtain ⟨stages, went⟩ := ih was
      exact ⟨_, went.after stepped⟩
    · have inside := (List.getElem?_eq_some_iff.mp found).1
      rcases length_next stepped with ⟨request', rfl, _⟩ | same
      · have called := call_next stepped
        rw [← new, found] at called
        cases called
        exact ⟨[], .called before new stepped⟩
      · omega

/-- The stages of a task along a run, after those it has gone through. -/
def journey (sys : System σ ι κ ε α) (task : Nat) (stages : List (Stage σ ι))
    (c : Config σ ι κ α) : List (Move ι κ ε) → Option (List (Stage σ ι) × Config σ ι κ α)
  | [] => some (stages, c)
  | action :: rest => (sys.next c action).bind fun d =>
    sys.journey task (stages ++ stagesOf task c d action) d rest

theorem Went.journey {actions : List (Move ι κ ε)} (went : sys.Went start task request stages c)
    (ran : sys.journey task stages c actions = some (stages', d)) :
    sys.Went start task request stages' d := by
  induction actions generalizing stages c with
  | nil =>
    cases ran
    exact went
  | cons action rest ih =>
    obtain ⟨e, stepped, later⟩ := Option.bind_eq_some_iff.mp ran
    exact ih (went.after stepped) later

/-- The stages of the call that is made after a run, and where they lead. -/
def visit (sys : System σ ι κ ε α) (start : σ) (task : Nat) (before : List (Move ι κ ε))
    (request : κ) (after : List (Move ι κ ε)) : Option (List (Stage σ ι) × Config σ ι κ α) :=
  (sys.runs (dormant start) before).bind fun c =>
    if task = c.pool.length then
      (sys.next c (.call request)).bind fun d => sys.journey task [] d after
    else none

/-- A call that has answered by the end of an evaluated run. -/
theorem took_of_visit {before after : List (Move ι κ ε)}
    (visited : sys.visit start task before request after = some (stages, d))
    (answered : d.answer task = some a) : sys.Took start task request stages a d := by
  obtain ⟨c, ran, visited⟩ := Option.bind_eq_some_iff.mp visited
  split at visited
  · rename_i last
    obtain ⟨e, called, visited⟩ := Option.bind_eq_some_iff.mp visited
    exact ((Went.called (leads_of_runs sys ran) last called).journey visited).took answered
  · cases visited

end System
end Concurrent
