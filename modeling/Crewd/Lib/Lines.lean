import Mathlib.Data.List.Basic

/-! Values that are written as lines and read through a pipe. The reader takes one line at a
time, and the last one may lack its end; when it reads back what is written and nothing that
is cut, then wherever the text stops it has read the first of the values, in their order. -/
namespace Lines

variable {α : Type} {text line rest : List Char}

section Texts

/-- The lines, each with its line feed. -/
def join (lines : List (List Char)) : List Char := lines.flatMap (· ++ ['\n'])

@[simp] theorem join_nil : join [] = [] := rfl

@[simp] theorem join_cons (first : List Char) (more : List (List Char)) :
    join (first :: more) = first ++ '\n' :: join more := by
  simp [join]

@[simp] theorem join_append (first second : List (List Char)) :
    join (first ++ second) = join first ++ join second :=
  List.flatMap_append

/-- The first whole line, with its line feed, and what follows it. -/
def takeLine : List Char → Option (List Char × List Char)
  | [] => none
  | c :: rest => if c = '\n' then some ([c], rest) else
      (takeLine rest).map fun taken => (c :: taken.1, taken.2)

/-- The lines of a text that has ended; the last may lack its line feed. -/
def pieces : List Char → List (List Char)
  | [] => []
  | c :: rest => if c = '\n' then [c] :: pieces rest else
      (c :: (pieces rest).headD []) :: (pieces rest).tail

theorem takeLine_join (free : '\n' ∉ line) (rest : List Char) :
    takeLine (line ++ '\n' :: rest) = some (line ++ ['\n'], rest) := by
  induction line with
  | nil => rfl
  | cons c more ih =>
    obtain ⟨other, later⟩ := List.ne_and_not_mem_of_not_mem_cons free
    rw [List.cons_append, takeLine, if_neg other.symm, ih later]
    rfl

theorem takeLine_free (free : '\n' ∉ text) : takeLine text = none := by
  induction text with
  | nil => rfl
  | cons c more ih =>
    obtain ⟨other, later⟩ := List.ne_and_not_mem_of_not_mem_cons free
    rw [takeLine, if_neg other.symm, ih later]
    rfl

theorem pieces_join (free : '\n' ∉ line) (rest : List Char) :
    pieces (line ++ '\n' :: rest) = (line ++ ['\n']) :: pieces rest := by
  induction line with
  | nil => rfl
  | cons c more ih =>
    obtain ⟨other, later⟩ := List.ne_and_not_mem_of_not_mem_cons free
    rw [List.cons_append, pieces, if_neg other.symm, ih later]
    rfl

theorem pieces_free (free : '\n' ∉ text) (some' : text ≠ []) : pieces text = [text] := by
  induction text with
  | nil => exact absurd rfl some'
  | cons c more ih =>
    obtain ⟨other, later⟩ := List.ne_and_not_mem_of_not_mem_cons free
    rw [pieces, if_neg other.symm]
    cases more with
    | nil => rfl
    | cons d more => rw [ih later (List.cons_ne_nil d more)]; rfl

/-- A text that stops within lines holds the first line, or stops before its end. -/
theorem append_eq_join {first lost : List Char} {more : List (List Char)}
    (stops : text ++ lost = join (first :: more)) :
    (∃ rest, text = first ++ '\n' :: rest ∧ rest ++ lost = join more) ∨ text <+: first := by
  rw [join_cons] at stops
  rcases List.append_eq_append_iff.mp stops with ⟨cut, rfl, _⟩ | ⟨rest, rfl, tail⟩
  · exact .inr (List.prefix_append text cut)
  · cases rest with
    | nil => exact .inr (by simp)
    | cons c rest =>
      obtain ⟨rfl, later⟩ := List.cons.inj tail
      exact .inl ⟨rest, rfl, later.symm⟩

end Texts

section Values
variable {read : List Char → Option α} {write : α → List Char} {kind : α → Prop} {values : List α}

/-- The reader reads the values of a kind back, with or without the end of the line, and
nothing that is cut. -/
structure Faithful (read : List Char → Option α) (write : α → List Char) (kind : α → Prop) :
    Prop where
  clean : ∀ a, kind a → '\n' ∉ write a
  line : ∀ a, kind a → read (write a ++ ['\n']) = some a
  whole : ∀ a, kind a → read (write a) = some a
  cut : ∀ a, kind a → ∀ text rest, rest ≠ [] → text ++ rest = write a → read text = none

variable (faithful : Faithful read write kind)
include faithful

/-- A whole line that is taken is the next value. -/
theorem Faithful.takeLine {lost : List Char} (kinds : ∀ a ∈ values, kind a)
    (stops : text ++ lost = join (values.map write)) (taken : takeLine text = some (line, rest)) :
    ∃ a more, values = a :: more ∧ read line = some a ∧ rest ++ lost = join (more.map write) := by
  cases values with
  | nil =>
    rw [(List.append_eq_nil_iff.mp stops).1] at taken
    cases taken
  | cons a more =>
    have here := kinds a List.mem_cons_self
    have free := faithful.clean a here
    rcases append_eq_join stops with ⟨after, rfl, later⟩ | within
    · rw [takeLine_join free] at taken
      cases taken
      exact ⟨a, more, rfl, faithful.line a here, later⟩
    · rw [takeLine_free fun inside => free (within.subset inside)] at taken
      cases taken

/-- When the text has ended, what it holds are the first of the values. -/
theorem Faithful.pieces_cut (kinds : ∀ a ∈ values, kind a)
    (stops : text <+: join (values.map write)) : (pieces text).filterMap read <+: values := by
  induction values generalizing text with
  | nil =>
    rw [List.prefix_nil.mp stops]
    exact List.nil_prefix
  | cons a more ih =>
    obtain ⟨here, later⟩ := List.forall_mem_cons.mp kinds
    obtain ⟨lost, stops⟩ := stops
    have free := faithful.clean a here
    rcases append_eq_join stops with ⟨rest, rfl, after⟩ | ⟨lost, cut⟩
    · rw [pieces_join free, List.filterMap_cons, faithful.line a here]
      exact List.cons_prefix_cons.mpr ⟨rfl, ih later ⟨lost, after⟩⟩
    · by_cases blank : text = []
      · rw [blank]
        exact List.nil_prefix
      · have partly : '\n' ∉ text := fun inside => free (cut ▸ List.mem_append_left lost inside)
        rw [pieces_free partly blank]
        by_cases none : lost = []
        · rw [none, List.append_nil] at cut
          rw [cut, List.filterMap_cons, faithful.whole a here]
          exact List.cons_prefix_cons.mpr ⟨rfl, List.nil_prefix⟩
        · rw [List.filterMap_cons, faithful.cut a here text lost none cut]
          exact List.nil_prefix

end Values
end Lines
