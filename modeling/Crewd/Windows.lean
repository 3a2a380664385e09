import Crewd.Quota

/-! The two rate windows of a submission as one operation: what is too old is pruned,
and the units are appended when they fit. -/
namespace Crewd

/-- A window is kept per sender, and per sender and limited capability. -/
inductive Axis where
  | sender
  | capability (cap : Capability)
deriving DecidableEq

/-- What is pruned is a minute old. -/
theorem prune_drops (nowMs : Nat) (window : List Nat) :
    ∃ old, window = old ++ prune nowMs window ∧ ∀ front ∈ old, front + windowMs ≤ nowMs := by
  induction window with
  | nil => exact ⟨[], rfl, fun _ member => by cases member⟩
  | cons front later ih =>
    rw [prune]
    split
    · next aged =>
      obtain ⟨old, split, stale⟩ := ih
      refine ⟨front :: old, congrArg (front :: ·) split, fun time member => ?_⟩
      rcases List.mem_cons.mp member with rfl | inside
      · unfold windowMs at aged ⊢
        omega
      · exact stale time inside
    · exact ⟨[], rfl, fun _ member => by cases member⟩

/-- There is room for the units under the ceiling. -/
def Within (ceiling nowMs units : Nat) (window : List Nat) : Prop :=
  (prune nowMs window).length + units ≤ ceiling

instance : Decidable (Within ceiling nowMs units window) := inferInstanceAs (Decidable (_ ≤ _))

/-- The units are charged if they fit. -/
def charge (ceiling nowMs units : Nat) (window : List Nat) : List Nat :=
  if Within ceiling nowMs units window then prune nowMs window ++ List.replicate units nowMs
  else prune nowMs window

namespace QuotaTracker

def window (quota : QuotaTracker) : Axis → String → List Nat
  | .sender, cell => quota.perSender cell
  | .capability cap, cell => quota.perCapability (cell, cap)

def limit (quota : QuotaTracker) : Axis → Nat
  | .sender => quota.config.senderPerMin
  | .capability cap => (quota.capabilityCeiling cap).getD 0

variable {quota : QuotaTracker} {sender cell : String} {nowMs units : Nat} {axis : Axis}

theorem limit_of_config {quota quota' : QuotaTracker} (same : quota'.config = quota.config) :
    quota'.limit axis = quota.limit axis := by
  unfold limit capabilityCeiling
  rw [same]

theorem window_noteAndCheckSender :
    (quota.noteAndCheckSender sender nowMs units).2.window axis cell =
      if axis = .sender ∧ sender = cell then
        charge (quota.limit .sender) nowMs units (quota.window .sender cell)
      else quota.window axis cell := by
  unfold noteAndCheckSender charge Within limit window
  cases axis with
  | sender =>
    by_cases same : sender = cell
    · subst same
      by_cases full : (prune nowMs (quota.perSender sender)).length + units >
          quota.config.senderPerMin
      · simp [full, Nat.not_le.mpr full]
      · simp [full, Nat.not_lt.mp full]
    · have other : cell ≠ sender := fun back => same back.symm
      dsimp only
      split <;> simp [same, other]
  | capability cap =>
    dsimp only
    split <;> simp

theorem noteAndCheckSender_ok_iff :
    (quota.noteAndCheckSender sender nowMs units).1 = .ok () ↔
      Within (quota.limit .sender) nowMs units (quota.window .sender sender) := by
  unfold noteAndCheckSender Within limit window
  dsimp only
  split
  · simp only [reduceCtorEq, false_iff]
    omega
  · simp only [true_iff]
    omega

theorem noteAndCheckCapability_unlimited {cap : Capability}
    (free : quota.capabilityCeiling cap = none) :
    quota.noteAndCheckCapability sender cap nowMs = (.ok (), quota) := by
  unfold noteAndCheckCapability
  rw [free]

theorem window_noteAndCheckCapability {cap : Capability} {ceiling : Nat}
    (limited : quota.capabilityCeiling cap = some ceiling) :
    (quota.noteAndCheckCapability sender cap nowMs).2.window axis cell =
      if axis = .capability cap ∧ sender = cell then
        charge (quota.limit (.capability cap)) nowMs 1 (quota.window (.capability cap) cell)
      else quota.window axis cell := by
  unfold noteAndCheckCapability charge Within limit window
  rw [limited]
  cases axis with
  | sender =>
    dsimp only
    split <;> simp
  | capability other =>
    by_cases same : other = cap ∧ sender = cell
    · obtain ⟨rfl, rfl⟩ := same
      by_cases full : (prune nowMs (quota.perCapability (sender, other))).length ≥ ceiling
      · have passed : ¬ (prune nowMs (quota.perCapability (sender, other))).length + 1 ≤ ceiling := by
          omega
        dsimp only
        rw [if_pos full]
        simp only [limited, Option.getD_some, if_neg passed, and_self, if_true, Function.update_self]
      · have fits : (prune nowMs (quota.perCapability (sender, other))).length + 1 ≤ ceiling := by omega
        simp [full, limited, fits]
    · have apart : (cell, other) ≠ (sender, cap) := by
        intro pair
        obtain ⟨rfl, rfl⟩ := Prod.mk.inj pair
        exact same ⟨rfl, rfl⟩
      have differs : ¬ (Axis.capability other = .capability cap ∧ sender = cell) := by
        rintro ⟨axes, senders⟩
        exact same ⟨Axis.capability.inj axes, senders⟩
      rw [if_neg differs]
      dsimp only
      split <;> simp [Function.update_of_ne apart]

theorem noteAndCheckCapability_ok_iff {cap : Capability} {ceiling : Nat}
    (limited : quota.capabilityCeiling cap = some ceiling) :
    (quota.noteAndCheckCapability sender cap nowMs).1 = .ok () ↔
      Within (quota.limit (.capability cap)) nowMs 1 (quota.window (.capability cap) sender) := by
  unfold noteAndCheckCapability Within limit window
  simp only [limited, Option.getD_some]
  split
  · simp only [reduceCtorEq, false_iff]
    omega
  · simp only [true_iff]
    omega

end QuotaTracker
end Crewd
