import Mathlib.Data.List.Induction

/-! Machines that take one input after the other. What a step gives and takes is collected
along a run; when every step balances what comes in against what goes out and what is held,
so does the run, and nothing is lost, made up or put out of order. -/
namespace Machines

variable {σ ι α : Type}

/-- The state after the inputs. -/
def after (step : σ → ι → σ) (s : σ) (inputs : List ι) : σ := inputs.foldl step s

/-- What is seen of the inputs, each in the state that it finds. -/
def along (step : σ → ι → σ) (look : σ → ι → List α) : σ → List ι → List α
  | _, [] => []
  | s, i :: rest => look s i ++ along step look (step s i) rest

section Runs
variable {step : σ → ι → σ} {look : σ → ι → List α} {s : σ}

@[simp] theorem after_nil : after step s [] = s := rfl

@[simp] theorem after_cons (i : ι) (rest : List ι) :
    after step s (i :: rest) = after step (step s i) rest := rfl

theorem after_inputs_append (first second : List ι) :
    after step s (first ++ second) = after step (after step s first) second :=
  List.foldl_append

@[simp] theorem after_concat (inputs : List ι) (i : ι) :
    after step s (inputs ++ [i]) = step (after step s inputs) i := after_inputs_append inputs [i]

@[simp] theorem along_nil : along step look s [] = [] := rfl

@[simp] theorem along_cons (i : ι) (rest : List ι) :
    along step look s (i :: rest) = look s i ++ along step look (step s i) rest := rfl

theorem along_append (first second : List ι) : along step look s (first ++ second) =
    along step look s first ++ along step look (after step s first) second := by
  induction first generalizing s with
  | nil => rfl
  | cons i rest ih => rw [List.cons_append, along_cons, ih, along_cons, List.append_assoc, after_cons]

@[simp] theorem along_concat (inputs : List ι) (i : ι) : along step look s (inputs ++ [i]) =
    along step look s inputs ++ look (after step s inputs) i := by
  rw [along_append, along_cons, along_nil, List.append_nil]

theorem along_eq_nil {inputs : List ι} (blind : ∀ i ∈ inputs, ∀ t, look t i = []) :
    along step look s inputs = [] := by
  induction inputs generalizing s with
  | nil => rfl
  | cons i rest ih =>
    obtain ⟨here, later⟩ := List.forall_mem_cons.mp blind
    rw [along_cons, here, ih later, List.append_nil]

/-- What is true of everything seen of an input is true of all that is seen along the run. -/
theorem along_forall {p : α → Prop} (each : ∀ t i, ∀ a ∈ look t i, p a) (inputs : List ι) :
    ∀ a ∈ along step look s inputs, p a := by
  induction inputs generalizing s with
  | nil => simp
  | cons i rest ih =>
    intro a member
    rcases List.mem_append.mp member with here | later
    · exact each s i a here
    · exact ih a later

theorem along_filterMap {β : Type} (f : α → Option β) (inputs : List ι) :
    along step (fun s i => (look s i).filterMap f) s inputs =
      (along step look s inputs).filterMap f := by
  induction inputs generalizing s with
  | nil => rfl
  | cons i rest ih => rw [along_cons, along_cons, List.filterMap_append, ih]

/-- A relation between what a machine was given and where it is, from one step to all runs. -/
theorem history {R : List ι → σ → Prop} (start : R [] s)
    (next : ∀ past t i, R past t → R (past ++ [i]) (step t i)) (inputs : List ι) :
    R inputs (after step s inputs) := by
  induction inputs using List.reverseRecOn with
  | nil => exact start
  | append_singleton past i ih =>
    rw [after_concat]
    exact next past _ i ih

theorem always {inv : σ → Prop} (start : inv s) (next : ∀ t i, inv t → inv (step t i))
    (inputs : List ι) : inv (after step s inputs) :=
  history (R := fun _ t => inv t) start (fun _ t i holds => next t i holds) inputs

end Runs

section Balance
variable {step : σ → ι → σ} {inv : σ → Prop} {held : σ → List α} {given taken : σ → ι → List α}

/-- Each step takes from the front of what is held and adds what it is given behind. -/
def Balanced (step : σ → ι → σ) (inv : σ → Prop) (held : σ → List α)
    (given taken : σ → ι → List α) : Prop :=
  ∀ s i, inv s → inv (step s i) ∧ held s ++ given s i = taken s i ++ held (step s i)

/-- What was held and what is given is taken, in this order, or is still held. -/
theorem Balanced.conserved (balanced : Balanced step inv held given taken) {s : σ} (start : inv s)
    (inputs : List ι) : held s ++ along step given s inputs =
      along step taken s inputs ++ held (after step s inputs) := by
  induction inputs generalizing s with
  | nil => simp
  | cons i rest ih =>
    obtain ⟨kept, balance⟩ := balanced s i start
    calc held s ++ along step given s (i :: rest)
        = (held s ++ given s i) ++ along step given (step s i) rest := by simp
      _ = taken s i ++ (held (step s i) ++ along step given (step s i) rest) := by
        rw [balance, List.append_assoc]
      _ = along step taken s (i :: rest) ++ held (after step s (i :: rest)) := by
        rw [ih kept]
        simp

/-- While nothing is taken, everything given is held. -/
theorem Balanced.held_since (balanced : Balanced step inv held given taken) {s : σ}
    (start : inv s) (empty : held s = []) {inputs : List ι}
    (idle : along step taken s inputs = []) :
    held (after step s inputs) = along step given s inputs := by
  have conserved := balanced.conserved start inputs
  rw [empty, idle, List.nil_append, List.nil_append] at conserved
  exact conserved.symm

end Balance
end Machines
