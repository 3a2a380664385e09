import Mathlib.Data.List.Infix

/-! Histories: what happened so far, the latest first. A condition on each mark and
what came before it is a condition on the run. -/
namespace History

variable {κ : Type} {fits : List κ → κ → Prop} {mark : κ} {before history later : List κ}

/-- Each mark fits to what happened before it. -/
def Each (fits : List κ → κ → Prop) : List κ → Prop
  | [] => True
  | mark :: earlier => Each fits earlier ∧ fits earlier mark

def decideEach [∀ earlier mark, Decidable (fits earlier mark)] :
    ∀ history, Decidable (Each fits history)
  | [] => .isTrue trivial
  | mark :: earlier =>
    have : Decidable (Each fits earlier) := decideEach earlier
    inferInstanceAs (Decidable (_ ∧ fits earlier mark))

instance [∀ earlier mark, Decidable (fits earlier mark)] : Decidable (Each fits history) :=
  decideEach history

namespace Each

theorem suffix (each : Each fits later) (suffix : history <:+ later) : Each fits history := by
  induction later with
  | nil => rw [List.suffix_nil.mp suffix]; trivial
  | cons mark earlier ih =>
    rcases List.suffix_cons_iff.mp suffix with rfl | inside
    · exact each
    · exact ih each.1 inside

/-- A mark fits to what came before it, wherever in the history it stands. -/
theorem at_mark (each : Each fits (later ++ mark :: before)) : fits before mark :=
  (each.suffix (List.suffix_append later _)).2

theorem of_split (fit : ∀ later mark before, history = later ++ mark :: before → fits before mark) :
    Each fits history := by
  induction history with
  | nil => trivial
  | cons mark earlier ih =>
    constructor
    · exact ih fun later other before split => fit (mark :: later) other before (by rw [split]; rfl)
    · exact fit [] mark earlier rfl

theorem imp_of_mem {fits' : List κ → κ → Prop} (each : Each fits history)
    (weaker : ∀ earlier mark, mark ∈ history → fits earlier mark → fits' earlier mark) :
    Each fits' history := by
  induction history with
  | nil => trivial
  | cons mark earlier ih =>
    constructor
    · exact ih each.1 fun before other inside =>
        weaker before other (List.mem_cons_of_mem _ inside)
    · exact weaker earlier mark List.mem_cons_self each.2

theorem imp {fits' : List κ → κ → Prop} (weaker : ∀ earlier mark, fits earlier mark → fits' earlier mark)
    (each : Each fits history) : Each fits' history :=
  each.imp_of_mem fun earlier mark _ => weaker earlier mark

/-- Marks that fit anywhere can follow. -/
theorem append {marks : List κ} (each : Each fits history)
    (free : ∀ mark ∈ marks, ∀ earlier, fits earlier mark) : Each fits (marks ++ history) := by
  induction marks with
  | nil => exact each
  | cons mark rest ih =>
    constructor
    · exact ih fun other inside => free other (List.mem_cons_of_mem _ inside)
    · exact free mark List.mem_cons_self _

theorem and {fits' : List κ → κ → Prop} (each : Each fits history) (each' : Each fits' history) :
    Each (fun earlier mark => fits earlier mark ∧ fits' earlier mark) history := by
  induction history with
  | nil => trivial
  | cons mark earlier ih => exact ⟨ih each.1 each'.1, each.2, each'.2⟩

/-- A mark that is there meets the condition at its place. -/
theorem fits_of_mem (each : Each fits history) (member : mark ∈ history) :
    ∃ before, fits before mark := by
  obtain ⟨later, before, rfl⟩ := List.append_of_mem member
  exact ⟨before, each.at_mark⟩

end Each
end History
