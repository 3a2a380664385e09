import Crewd.Lib.Autocommit

/-! Threads of control over one shared state. Each thread is a sequence of
critical sections; a section may wait until the input or the state lets it run.
Assertions between two sections must survive whatever other threads do. -/
namespace Concurrent

/-- A thread that has answered, or whose next section runs on an input `ι`. -/
inductive Process (σ ι α : Type) where
  | done (answer : α)
  | atomic (ready : ι → σ → Bool) (act : ι → σ → σ) (next : ι → σ → Process σ ι α)

variable {σ ι α β γ : Type}

namespace Process

def bind : Process σ ι α → (α → Process σ ι β) → Process σ ι β
  | done a, f => f a
  | atomic ready act next, f => atomic ready act fun i s => (next i s).bind f

instance : Monad (Process σ ι) where
  pure := done
  bind := bind

@[simp] theorem pure_eq (a : α) : (pure a : Process σ ι α) = done a := rfl

@[simp] theorem done_bind (a : α) (f : α → Process σ ι β) : (done a >>= f) = f a := rfl

@[simp] theorem atomic_bind (ready act) (next : ι → σ → Process σ ι α) (f : α → Process σ ι β) :
    (atomic ready act next >>= f) = atomic ready act fun i s => next i s >>= f := rfl

/-- One section that waits for `ready` and answers from the state it finds. -/
def waiting (ready : ι → σ → Bool) (f : ι → σ → α × σ) : Process σ ι α :=
  atomic ready (fun i s => (f i s).2) fun i s => done (f i s).1

/-- One section that can always run. -/
def critical (f : ι → σ → α × σ) : Process σ ι α := waiting (fun _ _ => true) f

end Process

open Process

/-- Nothing the relation allows makes the assertion false. -/
def Stable (R : σ → σ → Prop) (P : σ → Prop) : Prop := ∀ s t, R s t → P s → P t

variable {inv : σ → Prop} {rely guar : σ → σ → Prop}

/-- Started where `P` holds, every section moves the state by `guar` and leaves
an assertion no other thread can break; the answer satisfies `Q`. -/
def Safe (inv : σ → Prop) (rely guar : σ → σ → Prop) (Q : α → σ → Prop) :
    Process σ ι α → (σ → Prop) → Prop
  | .done a, P => ∀ s, inv s → P s → Q a s
  | .atomic ready act next, P => ∀ i s, inv s → P s → ready i s = true →
      guar s (act i s) ∧ ∃ P', Stable rely P' ∧ P' (act i s) ∧
        Safe inv rely guar Q (next i s) P'

namespace Safe
variable {P P' : σ → Prop} {Q Q' : α → σ → Prop} {p : Process σ ι α}

theorem weaken (before : ∀ s, inv s → P' s → P s) (safe : Safe inv rely guar Q p P) :
    Safe inv rely guar Q p P' := by
  cases p with
  | done a => exact fun s hi hs => safe s hi (before s hi hs)
  | atomic ready act next => exact fun i s hi hs => safe i s hi (before s hi hs)

/-- What does not depend on the state may be assumed from then on. -/
theorem assume {fact : Prop} (safe : fact → Safe inv rely guar Q p P) :
    Safe inv rely guar Q p (fun s => fact ∧ P s) := by
  cases p with
  | done a => exact fun s hi h => safe h.1 s hi h.2
  | atomic ready act next => exact fun i s hi h => safe h.1 i s hi h.2

theorem bind {f : α → Process σ ι β} {R : β → σ → Prop}
    (first : Safe inv rely guar Q p P) (rest : ∀ a, Safe inv rely guar R (f a) (Q a)) :
    Safe inv rely guar R (p >>= f) P := by
  induction p generalizing P with
  | done a => exact (rest a).weaken first
  | atomic ready act next ih =>
    intro i s hi hs hr
    obtain ⟨moves, P', stable, holds, safe⟩ := first i s hi hs hr
    exact ⟨moves, P', stable, holds, ih i s safe⟩

theorem post (after : ∀ a s, inv s → Q a s → Q' a s) (safe : Safe inv rely guar Q p P) :
    Safe inv rely guar Q' p P := by
  induction p generalizing P with
  | done a => exact fun s hi hs => after a s hi (safe s hi hs)
  | atomic ready act next ih =>
    intro i s hi hs hr
    obtain ⟨moves, P', stable, holds, safe⟩ := safe i s hi hs hr
    exact ⟨moves, P', stable, holds, ih i s safe⟩

/-- What neither the thread nor the others can make false holds all along. -/
theorem keep {I : σ → Prop} (others : Stable rely I) (own : Stable guar I)
    (safe : Safe inv rely guar Q p P) :
    Safe inv rely guar (fun a s => Q a s ∧ I s) p (fun s => P s ∧ I s) := by
  induction p generalizing P with
  | done a => exact fun s hi ⟨hs, holds⟩ => ⟨safe s hi hs, holds⟩
  | atomic ready act next ih =>
    intro i s hi ⟨hs, holds⟩ hr
    obtain ⟨moves, P', stable, holds', safe'⟩ := safe i s hi hs hr
    exact ⟨moves, _, fun s t step ⟨h, h'⟩ => ⟨stable s t step h, others s t step h'⟩,
      ⟨holds', own _ _ moves holds⟩, ih i s safe'⟩

/-- Against others that may do less, and for a guarantee that says less. -/
theorem mono {rely' guar' : σ → σ → Prop} (relies : ∀ s t, rely' s t → rely s t)
    (guarantees : ∀ s t, guar s t → guar' s t) (safe : Safe inv rely guar Q p P) :
    Safe inv rely' guar' Q p P := by
  induction p generalizing P with
  | done a => exact safe
  | atomic ready act next ih =>
    intro i s hi hs hr
    obtain ⟨moves, P', stable, holds, safe'⟩ := safe i s hi hs hr
    refine ⟨guarantees _ _ moves, P', ?_, holds, ih i s safe'⟩
    exact fun s t step => stable s t (relies s t step)

/-- A thread that keeps two guarantees keeps both at each section. -/
theorem both {guar' : σ → σ → Prop} (first : Safe inv rely guar Q p P)
    (second : Safe inv rely guar' Q' p P') :
    Safe inv rely (fun s t => guar s t ∧ guar' s t) (fun a s => Q a s ∧ Q' a s) p
      (fun s => P s ∧ P' s) := by
  induction p generalizing P P' with
  | done a => exact fun s hi hs => ⟨first s hi hs.1, second s hi hs.2⟩
  | atomic ready act next ih =>
    intro i s hi hs hr
    obtain ⟨moves, I, stable, holds, safe⟩ := first i s hi hs.1 hr
    obtain ⟨moves', I', stable', holds', safe'⟩ := second i s hi hs.2 hr
    refine ⟨⟨moves, moves'⟩, fun s => I s ∧ I' s, ?_, ⟨holds, holds'⟩, ih i s safe safe'⟩
    exact fun s t step both => ⟨stable s t step both.1, stable' s t step both.2⟩

theorem pure {a : α} (holds : ∀ s, inv s → P s → Q a s) :
    Safe inv rely guar Q (Pure.pure a : Process σ ι α) P := holds

theorem waiting {ready : ι → σ → Bool} {f : ι → σ → α × σ} (stable : ∀ a, Stable rely (Q a))
    (moves : ∀ i s, inv s → P s → ready i s = true → guar s (f i s).2)
    (holds : ∀ i s, inv s → P s → ready i s = true → Q (f i s).1 (f i s).2) :
    Safe inv rely guar Q (Process.waiting ready f) P :=
  fun i s hi hs hr => ⟨moves i s hi hs hr, Q (f i s).1, stable _, holds i s hi hs hr,
    fun _ _ h => h⟩

theorem critical {f : ι → σ → α × σ} (stable : ∀ a, Stable rely (Q a))
    (moves : ∀ i s, inv s → P s → guar s (f i s).2)
    (holds : ∀ i s, inv s → P s → Q (f i s).1 (f i s).2) :
    Safe inv rely guar Q (Process.critical f) P :=
  waiting stable (fun i s hi hs _ => moves i s hi hs) (fun i s hi hs _ => holds i s hi hs)

end Safe
end Concurrent
