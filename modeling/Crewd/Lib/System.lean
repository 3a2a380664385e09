import Crewd.Lib.Process

/-! Services: requests served by threads that run side by side, one background
loop, events from outside, and crashes after which only a restart goes on.
Every run is a sequence of explicit actions, so a run can be evaluated. -/
namespace Concurrent

/-- A service over the shared state `σ`; `κ` are its requests, `ε` the events
of its surroundings, and a restart says whether the service came up again. -/
structure System (σ ι κ ε α : Type) where
  program : Nat → κ → Process σ ι α
  loop : Process σ ι Unit
  happens : ε → σ → Option σ
  restart : ι → σ → σ × Bool

/-- A thread that a crash has ended has no code left. -/
structure Config (σ ι κ α : Type) where
  shared : σ
  up : Bool
  pool : List (κ × Option (Process σ ι α))
  main : Process σ ι Unit

inductive Move (ι κ ε : Type) where
  | call (request : κ)
  | run (task : Nat) (input : ι)
  | main (input : ι)
  | event (event : ε)
  | crash (input : ι)

variable {σ ι κ ε α : Type}

/-- The answer of a thread that has one. -/
def Config.answer (c : Config σ ι κ α) (task : Nat) : Option α :=
  match c.pool[task]? with
  | some (_, some (.done a)) => some a
  | _ => none

theorem Config.answer_eq_some {c : Config σ ι κ α} :
    c.answer task = some a ↔ ∃ request, c.pool[task]? = some (request, some (.done a)) := by
  constructor
  · intro answered
    simp only [Config.answer] at answered
    split at answered
    · rename_i request _ found
      cases answered
      exact ⟨request, found⟩
    · cases answered
  · rintro ⟨request, found⟩
    simp [Config.answer, found]

namespace Process

def step (i : ι) (s : σ) : Process σ ι α → Option (Process σ ι α × σ)
  | done _ => none
  | atomic ready act next => if ready i s then some (next i s, act i s) else none

/-- What a crash leaves of a thread: its answer, when it had one. -/
def survives : Process σ ι α → Option (Process σ ι α)
  | done a => some (done a)
  | atomic .. => none

end Process

namespace System
variable (sys : System σ ι κ ε α)

/-- The service before its first start. -/
def dormant (s : σ) : Config σ ι κ α := ⟨s, false, [], .done ()⟩

def crashed (i : ι) (c : Config σ ι κ α) : Config σ ι κ α where
  shared := (sys.restart i c.shared).1
  up := (sys.restart i c.shared).2
  pool := c.pool.map fun task => (task.1, task.2.bind Process.survives)
  main := .done ()

def next (c : Config σ ι κ α) : Move ι κ ε → Option (Config σ ι κ α)
  | .call request =>
    if c.up then
      some { c with pool := c.pool ++ [(request, some (sys.program c.pool.length request))] }
    else none
  | .run task i =>
    if c.up then
      match c.pool[task]? with
      | some (request, some code) =>
        (code.step i c.shared).map fun (code', s) =>
          { c with shared := s, pool := c.pool.set task (request, some code') }
      | _ => none
    else none
  | .main i =>
    if c.up then
      match c.main with
      | .done _ => some { c with main := sys.loop }
      | code => (code.step i c.shared).map fun (code', s) => { c with shared := s, main := code' }
    else none
  | .event event => (sys.happens event c.shared).map fun s => { c with shared := s }
  | .crash i => some (sys.crashed i c)

def runs (c : Config σ ι κ α) : List (Move ι κ ε) → Option (Config σ ι κ α)
  | [] => some c
  | action :: rest => (sys.next c action).bind fun d => runs d rest

/-- The background loop is between two rounds. -/
def rests (c : Config σ ι κ α) : Bool :=
  match c.main with
  | .done _ => true
  | .atomic .. => false

inductive Leads : Config σ ι κ α → Config σ ι κ α → Prop where
  | refl (c) : Leads c c
  | next : Leads c d → sys.next d action = some e → Leads c e

/-- Reachable from the dormant service over the state `s`. -/
def Reaches (s : σ) (c : Config σ ι κ α) : Prop := sys.Leads (dormant s) c

theorem Leads.trans (first : sys.Leads c d) (second : sys.Leads d e) : sys.Leads c e := by
  induction second with
  | refl => exact first
  | next _ step ih => exact ih.next step

theorem leads_of_runs {actions : List (Move ι κ ε)} (ran : sys.runs c actions = some d) :
    sys.Leads c d := by
  induction actions generalizing c with
  | nil => cases ran; exact .refl _
  | cons action rest ih =>
    obtain ⟨e, step, tail⟩ := Option.bind_eq_some_iff.mp ran
    exact Leads.trans sys (Leads.next (.refl c) step) (ih tail)

end System

/-- Who moves the shared state. -/
inductive Actor where
  | task (task : Nat)
  | main
  | world
  | restart

/-- What the other threads and the world may do while a thread is between sections. -/
def others (guar : Actor → σ → σ → Prop) (self : Actor) (s t : σ) : Prop :=
  ∃ actor, actor ≠ self ∧ actor ≠ .restart ∧ guar actor s t

/-- Proof obligations of a service: what each actor does to the shared state,
and that each thread alone keeps to it against everything the others may do. -/
structure Sound (sys : System σ ι κ ε α) (inv : σ → Prop) (guar : Actor → σ → σ → Prop)
    (before : Nat → σ → Prop) (answer : Nat → κ → α → σ → Prop) : Prop where
  keeps : ∀ actor s t, guar actor s t → inv s → inv t
  waits : ∀ k actor, actor ≠ .task k → Stable (guar actor) (before k)
  lasts : ∀ k request a actor, actor ≠ .task k → Stable (guar actor) (answer k request a)
  program : ∀ k request, Safe inv (others guar (.task k)) (guar (.task k)) (answer k request)
    (sys.program k request) (before k)
  loop : Safe inv (others guar .main) (guar .main) (fun _ _ => True) sys.loop (fun _ => True)
  happens : ∀ event s t, inv s → sys.happens event s = some t → guar .world s t
  restarts : ∀ i s, inv s → guar .restart s (sys.restart i s).1

namespace Sound
variable {sys : System σ ι κ ε α} {inv : σ → Prop} {guar : Actor → σ → σ → Prop}
  {before : Nat → σ → Prop} {answer : Nat → κ → α → σ → Prop}

/-- The thread `self` can go on from here whatever the others did meanwhile. -/
def Ready (inv : σ → Prop) (guar : Actor → σ → σ → Prop) (self : Actor) (Q : β → σ → Prop)
    (code : Process σ ι β) (s : σ) : Prop :=
  ∃ P, Stable (others guar self) P ∧ P s ∧ Safe inv (others guar self) (guar self) Q code P

structure Holds (inv : σ → Prop) (guar : Actor → σ → σ → Prop) (before : Nat → σ → Prop)
    (answer : Nat → κ → α → σ → Prop) (c : Config σ ι κ α) : Prop where
  invariant : inv c.shared
  waiting : ∀ k, c.pool.length ≤ k → before k c.shared
  tasks : ∀ k request code, c.pool[k]? = some (request, some code) →
    Ready inv guar (.task k) (answer k request) code c.shared
  main : Ready inv guar .main (fun _ _ => True) c.main c.shared

theorem Ready.moved {β : Type} {Q : β → σ → Prop} {code : Process σ ι β}
    (ready : Ready inv guar self Q code s) (other : actor ≠ self) (running : actor ≠ .restart)
    (moved : guar actor s t) : Ready inv guar self Q code t := by
  obtain ⟨P, stable, holds, safe⟩ := ready
  exact ⟨P, stable, stable s t ⟨actor, other, running, moved⟩ holds, safe⟩

/-- One section of a thread, from its assertion to the next one. -/
theorem safe_step {β : Type} {rely own : σ → σ → Prop} {P : σ → Prop} {Q : β → σ → Prop}
    {code code' : Process σ ι β} (safe : Safe inv rely own Q code P) (invariant : inv s)
    (holds : P s) (stepped : code.step i s = some (code', t)) :
    own s t ∧ ∃ P', Stable rely P' ∧ P' t ∧ Safe inv rely own Q code' P' := by
  cases code with
  | done a => simp [Process.step] at stepped
  | atomic ready act next =>
    by_cases runs : ready i s = true
    · simp only [Process.step, runs, if_true, Option.some.injEq, Prod.mk.injEq] at stepped
      obtain ⟨rfl, rfl⟩ := stepped
      exact safe i s invariant holds runs
    · simp [Process.step, runs] at stepped

theorem Ready.step {β : Type} {Q : β → σ → Prop} {code code' : Process σ ι β}
    (ready : Ready inv guar self Q code s) (invariant : inv s)
    (stepped : code.step i s = some (code', t)) :
    guar self s t ∧ Ready inv guar self Q code' t := by
  obtain ⟨P, _, holds, safe⟩ := ready
  exact safe_step safe invariant holds stepped

/-- A thread with an answer needs nothing but that its answer lasts. -/
theorem Ready.answered {β : Type} {Q : β → σ → Prop} {a : β}
    (lasts : ∀ actor, actor ≠ self → Stable (guar actor) (Q a)) (holds : Q a s) :
    Ready inv guar self Q (.done a : Process σ ι β) s :=
  ⟨Q a, fun s t ⟨actor, other, _, moved⟩ h => lasts actor other s t moved h, holds,
    fun _ _ h => h⟩

theorem Ready.result {β : Type} {Q : β → σ → Prop} {a : β}
    (ready : Ready inv guar self Q (.done a : Process σ ι β) s) (invariant : inv s) : Q a s := by
  obtain ⟨P, _, holds, safe⟩ := ready
  exact safe s invariant holds

variable {c d : Config σ ι κ α}

private theorem holds_call (sound : Sound sys inv guar before answer)
    (holds : Holds inv guar before answer c) (request : κ) :
    Holds inv guar before answer
      { c with pool := c.pool ++ [(request, some (sys.program c.pool.length request))] } := by
  refine ⟨holds.invariant, fun k hk => holds.waiting k (by simp at hk; omega), ?_, holds.main⟩
  intro k request' code found
  rcases Nat.lt_trichotomy k c.pool.length with less | same | more
  · exact holds.tasks k request' code (by simpa [List.getElem?_append_left less] using found)
  · subst same
    simp only [List.getElem?_concat_length, Option.some.injEq, Prod.mk.injEq] at found
    obtain ⟨rfl, rfl⟩ := found
    exact ⟨before _, fun s t ⟨actor, other, _, moved⟩ => sound.waits _ actor other s t moved,
      holds.waiting _ (Nat.le_refl _), sound.program _ _⟩
  · have outside : (c.pool ++ [(request, some (sys.program c.pool.length request))])[k]? =
        none := List.getElem?_eq_none (by simp; omega)
    exact absurd (outside.symm.trans found) (by simp)

private theorem holds_moved (sound : Sound sys inv guar before answer)
    (holds : Holds inv guar before answer c) (foreign : actor = .main ∨ actor = .world)
    (moved : guar actor c.shared t) {code : Process σ ι Unit}
    (main : Ready inv guar .main (fun _ _ => True) code t) :
    Holds inv guar before answer { c with shared := t, main := code } where
  invariant := sound.keeps _ _ _ moved holds.invariant
  waiting k hk := sound.waits k actor (by rcases foreign with rfl | rfl <;> simp) _ _ moved
    (holds.waiting k hk)
  tasks k request code found := (holds.tasks k request code found).moved
    (by rcases foreign with rfl | rfl <;> simp) (by rcases foreign with rfl | rfl <;> simp) moved
  main := main

private theorem holds_run (sound : Sound sys inv guar before answer)
    (holds : Holds inv guar before answer c) (found : c.pool[task]? = some (request, some code))
    (ran : code.step i c.shared = some (code', t)) :
    Holds inv guar before answer
      { c with shared := t, pool := c.pool.set task (request, some code') } := by
  have inside : task < c.pool.length := (List.getElem?_eq_some_iff.mp found).1
  obtain ⟨moves, ready⟩ := (holds.tasks task request code found).step holds.invariant ran
  refine ⟨sound.keeps _ _ _ moves holds.invariant, ?_, ?_,
    holds.main.moved (by simp) (by simp) moves⟩
  · intro k hk
    simp only [List.length_set] at hk
    exact sound.waits k (.task task) (by simp; omega) _ _ moves (holds.waiting k hk)
  · intro k request' code'' found'
    by_cases same : task = k
    · subst same
      simp only [List.getElem?_set_self inside, Option.some.injEq, Prod.mk.injEq] at found'
      obtain ⟨rfl, rfl⟩ := found'
      exact ready
    · rw [List.getElem?_set_ne same] at found'
      exact (holds.tasks k request' code'' found').moved (by simpa using same) (by simp) moves

private theorem survivor {task : κ × Option (Process σ ι α)}
    (left : (task.1, task.2.bind Process.survives) = (request, some code)) :
    task.1 = request ∧ ∃ a, task.2 = some (.done a) ∧ code = .done a := by
  obtain ⟨request', status⟩ := task
  simp only [Prod.mk.injEq] at left
  obtain ⟨rfl, left⟩ := left
  obtain ⟨before, rfl, survived⟩ := Option.bind_eq_some_iff.mp left
  cases before with
  | done a => exact ⟨rfl, a, rfl, by simpa [Process.survives] using survived.symm⟩
  | atomic ready act next => simp [Process.survives] at survived

private theorem holds_crash (sound : Sound sys inv guar before answer)
    (holds : Holds inv guar before answer c) (i : ι) :
    Holds inv guar before answer (sys.crashed i c) := by
  have moves := sound.restarts i c.shared holds.invariant
  refine ⟨sound.keeps _ _ _ moves holds.invariant,
    fun k hk => sound.waits k .restart (by simp) _ _ moves
      (holds.waiting k (by simpa [System.crashed] using hk)), ?_,
    fun _ => True, fun _ _ _ h => h, trivial, fun _ _ _ => trivial⟩
  intro k request code found
  simp only [System.crashed, List.getElem?_map] at found
  obtain ⟨⟨request', status⟩, was, left⟩ := Option.map_eq_some_iff.mp found
  obtain ⟨rfl, a, rfl, rfl⟩ := survivor left
  have answered := (holds.tasks k request' (.done a) was).result holds.invariant
  exact .answered (fun actor other => sound.lasts k request' a actor other)
    (sound.lasts k request' a .restart (by simp) _ _ moves answered)

theorem holds_next (sound : Sound sys inv guar before answer)
    (holds : Holds inv guar before answer c) (stepped : sys.next c action = some d) :
    Holds inv guar before answer d := by
  cases action with
  | call request =>
    simp only [System.next] at stepped
    split at stepped
    · cases stepped; exact holds_call sound holds request
    · cases stepped
  | run task i =>
    simp only [System.next] at stepped
    split at stepped
    · split at stepped
      · obtain ⟨⟨code', s⟩, ran, rfl⟩ := Option.map_eq_some_iff.mp stepped
        exact holds_run sound holds ‹_› ran
      · cases stepped
    · cases stepped
  | main i =>
    simp only [System.next] at stepped
    split at stepped
    · split at stepped
      · cases stepped
        exact { holds with main := ⟨fun _ => True, fun _ _ _ h => h, trivial, sound.loop⟩ }
      · obtain ⟨⟨code', s⟩, ran, rfl⟩ := Option.map_eq_some_iff.mp stepped
        obtain ⟨moves, ready⟩ := holds.main.step holds.invariant ran
        exact holds_moved sound holds (.inl rfl) moves ready
    · cases stepped
  | event event =>
    obtain ⟨s, happened, rfl⟩ := Option.map_eq_some_iff.mp stepped
    have moves := sound.happens event _ _ holds.invariant happened
    exact holds_moved sound holds (.inr rfl) moves (holds.main.moved (by simp) (by simp) moves)
  | crash i => cases stepped; exact holds_crash sound holds i

theorem holds_leads (sound : Sound sys inv guar before answer)
    (holds : Holds inv guar before answer c) (path : sys.Leads c d) :
    Holds inv guar before answer d := by
  induction path with
  | refl => exact holds
  | next _ step ih => exact holds_next sound ih step

theorem holds_reaches (sound : Sound sys inv guar before answer) (initial : inv s)
    (fresh : ∀ k, before k s) (path : sys.Reaches s c) : Holds inv guar before answer c := by
  refine holds_leads sound ⟨initial, fun k _ => fresh k, ?_, ?_⟩ path
  · intro k request code found
    simp [System.dormant] at found
  · exact ⟨fun _ => True, fun _ _ _ h => h, trivial, fun _ _ _ => trivial⟩

/-- The state moves only as the actors of the service may move it. -/
theorem moves_next (sound : Sound sys inv guar before answer)
    (holds : Holds inv guar before answer c) (stepped : sys.next c action = some d) :
    c.shared = d.shared ∨ ∃ actor, guar actor c.shared d.shared := by
  cases action with
  | call request =>
    simp only [System.next] at stepped
    split at stepped <;> cases stepped
    exact .inl rfl
  | run task i =>
    simp only [System.next] at stepped
    split at stepped
    · split at stepped
      · obtain ⟨⟨code', s⟩, ran, rfl⟩ := Option.map_eq_some_iff.mp stepped
        exact .inr ⟨_, ((holds.tasks _ _ _ ‹_›).step holds.invariant ran).1⟩
      · cases stepped
    · cases stepped
  | main i =>
    simp only [System.next] at stepped
    split at stepped
    · split at stepped
      · cases stepped; exact .inl rfl
      · obtain ⟨⟨code', s⟩, ran, rfl⟩ := Option.map_eq_some_iff.mp stepped
        exact .inr ⟨_, (holds.main.step holds.invariant ran).1⟩
    · cases stepped
  | event event =>
    obtain ⟨s, happened, rfl⟩ := Option.map_eq_some_iff.mp stepped
    exact .inr ⟨_, sound.happens event _ _ holds.invariant happened⟩
  | crash i => cases stepped; exact .inr ⟨_, sound.restarts i c.shared holds.invariant⟩

/-- What no actor can undo stays for the rest of the run. -/
theorem stays (sound : Sound sys inv guar before answer)
    (holds : Holds inv guar before answer c) {P : σ → Prop}
    (stable : ∀ actor s t, guar actor s t → inv s → P s → P t) (now : P c.shared)
    (path : sys.Leads c d) : P d.shared := by
  induction path with
  | refl => exact now
  | @next d e _ path step ih =>
    have holds' := holds_leads sound holds path
    rcases moves_next sound holds' step with same | ⟨actor, moved⟩
    · exact same ▸ ih
    · exact stable actor _ _ moved holds'.invariant ih

section Rounds
variable {good B : σ → Prop}

/-- The background loop can go on from here, and `B` holds when its round ends. -/
def Rounds (guar : Actor → σ → σ → Prop) (good B : σ → Prop) (c : Config σ ι κ α) : Prop :=
  ∃ P, Stable (others guar .main) P ∧ P c.shared ∧
    Safe good (others guar .main) (fun _ _ => True) (fun _ => B) c.main P

theorem Rounds.moved (rounds : Rounds guar good B c) (other : actor ≠ .main)
    (running : actor ≠ .restart) (moved : guar actor c.shared t) (main : d.main = c.main)
    (shared : d.shared = t) : Rounds guar good B d := by
  obtain ⟨P, stable, holds, safe⟩ := rounds
  rw [Rounds, main, shared]
  exact ⟨P, stable, stable _ _ ⟨actor, other, running, moved⟩ holds, safe⟩

theorem rounds_next (sound : Sound sys inv guar before answer)
    (loop : Safe good (others guar .main) (fun _ _ => True) (fun _ => B) sys.loop B)
    (stable : Stable (others guar .main) B) (back : ∀ i s, inv s → B (sys.restart i s).1)
    (holds : Holds inv guar before answer c) (well : good c.shared)
    (rounds : Rounds guar good B c) (stepped : sys.next c action = some d) :
    Rounds guar good B d := by
  cases action with
  | call request =>
    simp only [System.next] at stepped
    split at stepped <;> cases stepped
    exact rounds
  | run task i =>
    simp only [System.next] at stepped
    split at stepped
    · split at stepped
      · obtain ⟨⟨code', s⟩, ran, rfl⟩ := Option.map_eq_some_iff.mp stepped
        have moves := ((holds.tasks _ _ _ ‹_›).step holds.invariant ran).1
        exact rounds.moved (by simp) (by simp) moves rfl rfl
      · cases stepped
    · cases stepped
  | main i =>
    obtain ⟨P, lasts, now, safe⟩ := rounds
    simp only [System.next] at stepped
    split at stepped
    · split at stepped
      · rename_i ended
        cases stepped
        rw [ended] at safe
        exact ⟨B, stable, safe c.shared well now, loop⟩
      · obtain ⟨⟨code', s⟩, ran, rfl⟩ := Option.map_eq_some_iff.mp stepped
        exact (safe_step safe well now ran).2
    · cases stepped
  | event event =>
    obtain ⟨s, happened, rfl⟩ := Option.map_eq_some_iff.mp stepped
    have moves := sound.happens event _ _ holds.invariant happened
    exact rounds.moved (by simp) (by simp) moves rfl rfl
  | crash i =>
    cases stepped
    exact ⟨B, stable, back i c.shared holds.invariant, fun _ _ now => now⟩

/-- What each round of the loop brings about again, and a restart too, holds between any
two rounds. -/
theorem between (sound : Sound sys inv guar before answer)
    (kept : ∀ actor s t, guar actor s t → good s → good t)
    (loop : Safe good (others guar .main) (fun _ _ => True) (fun _ => B) sys.loop B)
    (stable : Stable (others guar .main) B) (back : ∀ i s, inv s → B (sys.restart i s).1)
    (initial : inv s) (fresh : ∀ k, before k s) (first : good s ∧ B s) (path : sys.Reaches s c)
    (ended : c.main = .done ()) : B c.shared := by
  have along : good c.shared ∧ Rounds guar good B c := by
    clear ended
    induction path with
    | refl => exact ⟨first.1, B, stable, first.2, fun _ _ now => now⟩
    | next path stepped ih =>
      have holds := sound.holds_reaches initial fresh path
      refine ⟨?_, sound.rounds_next loop stable back holds ih.1 ih.2 stepped⟩
      rcases sound.moves_next holds stepped with same | ⟨actor, moved⟩
      · exact same ▸ ih.1
      · exact kept actor _ _ moved ih.1
  obtain ⟨well, P, _, now, safe⟩ := along
  rw [ended] at safe
  exact safe c.shared well now

end Rounds

end Sound
end Concurrent
