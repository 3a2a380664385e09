import Crewd.Lib.System

/-! How threads go on and end: what is left of a thread is code that its program
comes to, and every answer of a thread is either a failure or comes out of one of its
deciding sections, which in a run is one of the moves. -/
namespace Concurrent

variable {σ ι κ ε α β : Type}

namespace Process

/-- The second is what is left of the first after some of its sections. -/
inductive Becomes : Process σ ι α → Process σ ι α → Prop where
  | refl (p) : Becomes p p
  | next (i s) : Becomes p (.atomic ready act next) → Becomes p (next i s)

theorem Becomes.step {p code code' : Process σ ι α} (becomes : p.Becomes code)
    (stepped : code.step i s = some (code', t)) : p.Becomes code' ∧ ∃ ready act next,
      code = .atomic ready act next ∧ code' = next i s ∧ t = act i s := by
  cases code with
  | done a => simp [Process.step] at stepped
  | atomic ready act next =>
    simp only [Process.step] at stepped
    split at stepped
    · cases stepped
      exact ⟨becomes.next i s, ready, act, next, rfl, rfl, rfl⟩
    · cases stepped

/-- A thread that has answered stays as it is. -/
theorem Becomes.of_done {code : Process σ ι α} (becomes : Becomes (.done a) code) :
    code = .done a := by
  induction becomes with
  | refl => rfl
  | next i s _ ih => cases ih

/-- Apart from the special sections, every section moves the state by the relation. -/
def Apart (special : Process σ ι α → Prop) (R : σ → σ → Prop) : Process σ ι α → Prop
  | .done _ => True
  | .atomic ready act next => (special (.atomic ready act next) ∨ ∀ i s, R s (act i s)) ∧
      ∀ i s, (next i s).Apart special R

theorem Apart.bind {special : Process σ ι α → Prop} {R : σ → σ → Prop} {p : Process σ ι β}
    {f : β → Process σ ι α} (first : p.Apart (fun _ => False) R)
    (rest : ∀ b, (f b).Apart special R) : (p >>= f).Apart special R := by
  induction p with
  | done b => exact rest b
  | atomic ready act next ih =>
    refine ⟨.inr ?_, fun i s => ih i s (first.2 i s)⟩
    exact first.1.resolve_left id

theorem Apart.allow {special : Process σ ι α → Prop} {R : σ → σ → Prop} {p : Process σ ι α}
    (apart : p.Apart (fun _ => False) R) : p.Apart special R := by
  induction p with
  | done a => trivial
  | atomic ready act next ih =>
    exact ⟨.inr (apart.1.resolve_left id), fun i s => ih i s (apart.2 i s)⟩

theorem Apart.becomes {special : Process σ ι α → Prop} {R : σ → σ → Prop} {p code : Process σ ι α}
    (apart : p.Apart special R) (becomes : p.Becomes code) : code.Apart special R := by
  induction becomes with
  | refl => exact apart
  | next i s _ ih => exact ih.2 i s

end Process

/-- Whichever way the thread takes, it fails or comes to a deciding section. -/
def Process.Decides (deciding : Process σ ι α → Prop) (fails : α → Prop) :
    Process σ ι α → Prop
  | .done a => fails a
  | .atomic ready act next => deciding (.atomic ready act next) ∨
      ∀ i s, (next i s).Decides deciding fails

/-- After a part of which every answer is known to be of a kind. -/
theorem Process.Decides.bind_of {p : Process σ ι β} {f : β → Process σ ι α} {kind : β → Prop}
    (first : p.Decides (fun _ => False) kind) (rest : ∀ b, kind b → (f b).Decides deciding fails) :
    (p >>= f).Decides deciding fails := by
  induction p with
  | done b => exact rest b first
  | atomic ready act next ih => exact .inr fun i s => ih i s (first.resolve_left id i s)

theorem Process.Decides.any (p : Process σ ι α) : p.Decides (fun _ => False) fun _ => True := by
  induction p with
  | done a => trivial
  | atomic ready act next ih => exact .inr ih

theorem Process.Decides.bind {p : Process σ ι β} {f : β → Process σ ι α}
    (rest : ∀ b, (f b).Decides deciding fails) : (p >>= f).Decides deciding fails :=
  bind_of (.any p) fun b _ => rest b

/-- A thread that can only fail stays one. -/
theorem Process.Decides.becomes {p code : Process σ ι α} {fails : α → Prop}
    (decides : p.Decides (fun _ => False) fails) (becomes : p.Becomes code) :
    code.Decides (fun _ => False) fails := by
  induction becomes with
  | refl => exact decides
  | next i s _ ih => exact ih.resolve_left id i s

/-- A deciding section gives the answer at once. -/
def Final (deciding : Process σ ι α → Prop) : Prop :=
  ∀ code i s code' t, deciding code → code.step i s = some (code', t) → ∃ a, code' = .done a

namespace System
variable {sys : System σ ι κ ε α}

theorem runs_append {before after : List (Move ι κ ε)} {c : Config σ ι κ α} :
    sys.runs c (before ++ after) = (sys.runs c before).bind fun d => sys.runs d after := by
  induction before generalizing c with
  | nil => rfl
  | cons action rest ih =>
    rw [List.cons_append, runs, runs, Option.bind_assoc]
    exact congrArg (Option.bind _) (funext fun d => ih)

/-- What a move may do to the code of a task: nothing, one section, or start it. -/
theorem task_next {c d : Config σ ι κ α} {code : Process σ ι α}
    (stepped : sys.next c action = some d) (found : d.pool[task]? = some (request, some code)) :
    c.pool[task]? = some (request, some code) ∨
    (∃ before i t, action = .run task i ∧ c.pool[task]? = some (request, some before) ∧
      before.step i c.shared = some (code, t)) ∨
    task = c.pool.length ∧ code = sys.program task request := by
  cases action with
  | call request' =>
    simp only [System.next] at stepped
    split at stepped <;> cases stepped
    rcases Nat.lt_trichotomy task c.pool.length with less | same | more
    · exact .inl (by simpa [List.getElem?_append_left less] using found)
    · subst same
      simp only [List.getElem?_concat_length, Option.some.injEq, Prod.mk.injEq] at found
      obtain ⟨rfl, rfl⟩ := found
      exact .inr (.inr ⟨rfl, rfl⟩)
    · rw [List.getElem?_eq_none (by simp; omega)] at found
      cases found
  | run moved i =>
    simp only [System.next] at stepped
    split at stepped
    · split at stepped
      · rename_i request' before was
        obtain ⟨⟨after, t⟩, ran, rfl⟩ := Option.map_eq_some_iff.mp stepped
        have inside : moved < c.pool.length := (List.getElem?_eq_some_iff.mp was).1
        by_cases same : moved = task
        · subst same
          simp only [List.getElem?_set_self inside, Option.some.injEq, Prod.mk.injEq] at found
          obtain ⟨rfl, rfl⟩ := found
          exact .inr (.inl ⟨before, i, t, rfl, was, ran⟩)
        · rw [List.getElem?_set_ne same] at found
          exact .inl found
      · cases stepped
    · cases stepped
  | main i =>
    simp only [System.next] at stepped
    split at stepped
    · split at stepped
      · cases stepped
        exact .inl found
      · obtain ⟨_, _, rfl⟩ := Option.map_eq_some_iff.mp stepped
        exact .inl found
    · cases stepped
  | event event =>
    obtain ⟨_, _, rfl⟩ := Option.map_eq_some_iff.mp stepped
    exact .inl found
  | crash i =>
    cases stepped
    refine .inl ?_
    simp only [crashed, List.getElem?_map] at found
    obtain ⟨⟨request', status⟩, was, left⟩ := Option.map_eq_some_iff.mp found
    simp only [Prod.mk.injEq] at left
    obtain ⟨rfl, left⟩ := left
    obtain ⟨before, rfl, survived⟩ := Option.bind_eq_some_iff.mp left
    cases before with
    | done a => cases survived; exact was
    | atomic ready act next => simp [Process.survives] at survived

/-- A call starts the program of its request. -/
theorem call_next {c d : Config σ ι κ α} (stepped : sys.next c (.call request) = some d) :
    d.pool[c.pool.length]? = some (request, some (sys.program c.pool.length request)) := by
  simp only [System.next] at stepped
  split at stepped <;> cases stepped
  simp

/-- A move of a task runs one section of its code. -/
theorem run_next {c d : Config σ ι κ α} {task : Nat} {i : ι}
    (stepped : sys.next c (.run task i) = some d) : ∃ request code code',
      c.pool[task]? = some (request, some code) ∧ code.step i c.shared = some (code', d.shared) ∧
      d.pool[task]? = some (request, some code') := by
  simp only [System.next] at stepped
  split at stepped
  · split at stepped
    · rename_i request code found
      obtain ⟨⟨code', t⟩, ran, rfl⟩ := Option.map_eq_some_iff.mp stepped
      have inside : task < c.pool.length := (List.getElem?_eq_some_iff.mp found).1
      exact ⟨request, code, code', found, ran, by simp only [List.getElem?_set_self inside]⟩
    · cases stepped
  · cases stepped

/-- The code of a task is something its program has become. -/
theorem program_becomes {c : Config σ ι κ α} {code : Process σ ι α} (path : sys.Reaches s c)
    (found : c.pool[task]? = some (request, some code)) :
    (sys.program task request).Becomes code := by
  induction path generalizing code with
  | refl => simp [dormant] at found
  | next _ stepped ih =>
    rcases task_next stepped found with was | ⟨before, i, t, _, was, ran⟩ | ⟨_, rfl⟩
    · exact ih was
    · exact ((ih was).step ran).1
    · exact .refl _

/-- Only a call adds a task. -/
theorem length_next {c d : Config σ ι κ α} (stepped : sys.next c action = some d) :
    (∃ request, action = .call request ∧ d.pool.length = c.pool.length + 1) ∨
      d.pool.length = c.pool.length := by
  cases action with
  | call request =>
    simp only [System.next] at stepped
    split at stepped <;> cases stepped
    exact .inl ⟨request, rfl, by simp⟩
  | run task i =>
    simp only [System.next] at stepped
    split at stepped
    · split at stepped
      · obtain ⟨_, _, rfl⟩ := Option.map_eq_some_iff.mp stepped
        exact .inr (List.length_set ..)
      · cases stepped
    · cases stepped
  | main i =>
    simp only [System.next] at stepped
    split at stepped
    · split at stepped
      · cases stepped
        exact .inr rfl
      · obtain ⟨_, _, rfl⟩ := Option.map_eq_some_iff.mp stepped
        exact .inr rfl
    · cases stepped
  | event event =>
    obtain ⟨_, _, rfl⟩ := Option.map_eq_some_iff.mp stepped
    exact .inr rfl
  | crash i =>
    cases stepped
    exact .inr (List.length_map ..)

theorem length_le_of_leads {c d : Config σ ι κ α} (path : sys.Leads c d) :
    c.pool.length ≤ d.pool.length := by
  induction path with
  | refl => exact Nat.le_refl _
  | next _ stepped ih =>
    rcases length_next stepped with ⟨_, _, more⟩ | same <;> omega

/-- From one configuration to a later one a task only goes on. -/
theorem task_becomes {c d : Config σ ι κ α} {code code' : Process σ ι α} {task : Nat}
    (path : sys.Leads c d) (found : c.pool[task]? = some (request, some code))
    (later : d.pool[task]? = some (request', some code')) :
    request' = request ∧ code.Becomes code' := by
  have inside : task < c.pool.length := (List.getElem?_eq_some_iff.mp found).1
  induction path generalizing code' with
  | refl =>
    cases found.symm.trans later
    exact ⟨rfl, .refl _⟩
  | next path stepped ih =>
    rcases task_next stepped later with was | ⟨before, i, t, _, was, ran⟩ | ⟨same, _⟩
    · exact ih was
    · exact ⟨(ih was).1, ((ih was).2.step ran).1⟩
    · have grown := length_le_of_leads path
      omega

/-- The answer of a call is that of its request. -/
theorem answered_call {c c' d : Config σ ι κ α} {a : α} (called : sys.next c (.call request) = some c')
    (path : sys.Leads c' d) (answered : d.answer c.pool.length = some a) :
    d.pool[c.pool.length]? = some (request, some (.done a)) := by
  obtain ⟨request', finished⟩ := Config.answer_eq_some.mp answered
  obtain ⟨rfl, _⟩ := task_becomes path (call_next called) finished
  exact finished

/-- The answer of the task was given by a deciding section on the way to `c`. -/
structure Decided (sys : System σ ι κ ε α) (deciding : Process σ ι α → Prop) (s : σ)
    (task : Nat) (request : κ) (a : α) (c : Config σ ι κ α) : Prop where
  move : ∃ before after i code, sys.Reaches s before ∧
    before.pool[task]? = some (request, some code) ∧ deciding code ∧
    sys.next before (.run task i) = some after ∧
    after.pool[task]? = some (request, some (.done a)) ∧ sys.Leads after c

/-- The task has come through a deciding section on the way to `c`. -/
structure Passed (sys : System σ ι κ ε α) (deciding : Process σ ι α → Prop) (s : σ)
    (task : Nat) (request : κ) (c : Config σ ι κ α) : Prop where
  move : ∃ before after i code code', sys.Reaches s before ∧
    before.pool[task]? = some (request, some code) ∧ deciding code ∧
    sys.next before (.run task i) = some after ∧
    code.step i before.shared = some (code', after.shared) ∧
    after.pool[task]? = some (request, some code') ∧ sys.Leads after c

theorem Passed.next (passed : Passed sys deciding s task request c)
    (stepped : sys.next c action = some d) : Passed sys deciding s task request d := by
  obtain ⟨before, after, i, code, code', path, found, decides, moved, ran, now, later⟩ := passed.move
  exact ⟨before, after, i, code, code', path, found, decides, moved, ran, now, later.next stepped⟩

/-- Where the sections before the first deciding one end, the task has not answered. -/
def Stands (sys : System σ ι κ ε α) (deciding : Process σ ι α → Prop) (fails : α → Prop) (s : σ)
    (task : Nat) (request : κ) (c : Config σ ι κ α) (code : Process σ ι α) : Prop :=
  code.Decides deciding fails ∨ Passed sys deciding s task request c

/-- The moved task has just come through a deciding section, or goes on. -/
private theorem stands_run (path : sys.Reaches s c)
    (stands : Stands sys deciding fails s task request c code)
    (found : c.pool[task]? = some (request, some code))
    (ran : code.step i c.shared = some (code', d.shared)) (stepped : sys.next c (.run task i) = some d)
    (now : d.pool[task]? = some (request, some code')) :
    Stands sys deciding fails s task request d code' := by
  rcases stands with way | passed
  · cases code with
    | done a => simp [Process.step] at ran
    | atomic ready act next =>
      rcases way with decides | on
      · exact .inr ⟨c, d, i, _, code', path, found, decides, stepped, ran, now, .refl d⟩
      · obtain ⟨_, _, _, _, same, rfl, _⟩ := (Process.Becomes.refl _).step ran
        cases same
        exact .inl (on i _)
  · exact .inr (passed.next stepped)

theorem stands_reachable (program : ∀ k, (sys.program k request).Decides deciding fails)
    (path : sys.Reaches s c) : ∀ task code, c.pool[task]? = some (request, some code) →
      Stands sys deciding fails s task request c code := by
  induction path with
  | refl => intro task code found; simp [dormant] at found
  | next before stepped ih =>
    intro task code found
    rcases task_next stepped found with was | ⟨code₀, i, t, rfl, was, ran⟩ | ⟨_, rfl⟩
    · exact (ih task code was).imp_right fun passed => passed.next stepped
    · obtain ⟨_, _, _, found₀, ran₀, now⟩ := run_next stepped
      cases found₀.symm.trans was
      cases now.symm.trans found
      exact stands_run before (ih task code₀ was) was ran₀ stepped found
    · exact .inl (program task)

/-- Every answer that is no failure comes after a deciding section. -/
theorem passed_of_answer {c : Config σ ι κ α} {a : α}
    (program : ∀ k, (sys.program k request).Decides deciding fails) (path : sys.Reaches s c)
    (answered : c.pool[task]? = some (request, some (.done a))) (good : ¬ fails a) :
    Passed sys deciding s task request c :=
  (stands_reachable program path task _ answered).resolve_left good

/-- The move with which a task gives an answer that is no failure runs a deciding section. -/
theorem deciding_move {c d : Config σ ι κ α} {a : α} (final : Final deciding)
    (program : ∀ k, (sys.program k request).Decides deciding fails) (path : sys.Reaches s c)
    (moved : sys.next c (.run task i) = some d)
    (answered : d.pool[task]? = some (request, some (.done a))) (good : ¬ fails a) :
    ∃ code, c.pool[task]? = some (request, some code) ∧ deciding code ∧
      code.step i c.shared = some (.done a, d.shared) := by
  obtain ⟨request', code, code', found, ran, now⟩ := run_next moved
  cases now.symm.trans answered
  refine ⟨code, found, ?_, ran⟩
  rcases stands_reachable program path task code found with way | passed
  · cases code with
    | done _ => simp [Process.step] at ran
    | atomic ready act next =>
      rcases way with decides | on
      · exact decides
      · obtain ⟨_, _, _, _, same, last, _⟩ := (Process.Becomes.refl _).step ran
        cases same
        have failed := on i c.shared
        rw [← last] at failed
        exact absurd failed good
  · obtain ⟨_, _, _, _, _, _, _, decides, _, first, there, later⟩ := passed.move
    obtain ⟨_, rfl⟩ := final _ _ _ _ _ decides first
    rw [(task_becomes later there found).2.of_done] at ran
    simp [Process.step] at ran

/-- Every answer that is no failure was given by a deciding section. -/
theorem decided_of_answer (final : Final deciding)
    (program : ∀ k, (sys.program k request).Decides deciding fails) (path : sys.Reaches s c)
    (answered : c.pool[task]? = some (request, some (.done a))) (good : ¬ fails a) :
    Decided sys deciding s task request a c := by
  obtain ⟨before, after, i, code, _, start, found, decides, moved, ran, there, later⟩ :=
    (passed_of_answer program path answered good).move
  obtain ⟨_, rfl⟩ := final _ _ _ _ _ decides ran
  cases (task_becomes later there answered).2.of_done
  exact ⟨before, after, i, code, start, found, decides, moved, there, later⟩

end System
end Concurrent
