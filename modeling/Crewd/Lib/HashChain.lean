import Mathlib.Data.List.Basic
import Mathlib.Data.List.Induction

/-! Hash chains over arbitrary entries: each entry names the digest of the one
before it. The head binds the entries when digests differ, and entries taken
from a chain link up again only in the order they had. -/
namespace HashChain

variable {α H : Type*} {prev digest : α → H} {start : H} {entries first second : List α}

/-- The digest of the last entry. -/
def head (digest : α → H) : H → List α → H
  | start, [] => start
  | _, entry :: later => head digest (digest entry) later

def Linked (prev digest : α → H) : H → List α → Prop
  | _, [] => True
  | start, entry :: later => prev entry = start ∧ Linked prev digest (digest entry) later

@[simp] theorem head_nil : head digest start [] = start := rfl

@[simp] theorem linked_nil : Linked prev digest start [] := trivial

theorem head_append : ∀ (start : H) (first second : List α),
    head digest start (first ++ second) = head digest (head digest start first) second
  | _, [], _ => rfl
  | _, entry :: later, second => head_append (digest entry) later second

@[simp] theorem head_concat (entry : α) :
    head digest start (entries ++ [entry]) = digest entry := by
  rw [head_append]
  rfl

theorem linked_append : ∀ (start : H) (first second : List α),
    Linked prev digest start (first ++ second) ↔
      Linked prev digest start first ∧ Linked prev digest (head digest start first) second
  | _, [], _ => by simp
  | _, entry :: later, second => by
    simp only [List.cons_append, Linked, head, linked_append (digest entry) later second, and_assoc]

@[simp] theorem linked_concat (entry : α) : Linked prev digest start (entries ++ [entry]) ↔
    Linked prev digest start entries ∧ prev entry = head digest start entries := by
  simp [linked_append, Linked]

/-- Two chains of one length with one head have the same entries. -/
theorem entries_of_head (apart : ∀ x ∈ first, ∀ y ∈ second, digest x = digest y → x = y)
    (linked : Linked prev digest start first) (other : Linked prev digest start second)
    (length : first.length = second.length)
    (same : head digest start first = head digest start second) : first = second := by
  induction first using List.reverseRecOn generalizing second with
  | nil => exact (List.length_eq_zero_iff.mp length.symm).symm
  | append_singleton before x ih =>
    obtain rfl | ⟨before', y, rfl⟩ := second.eq_nil_or_concat'
    · simp at length
    rw [head_concat, head_concat] at same
    obtain rfl := apart x (by simp) y (by simp) same
    rw [linked_concat] at linked other
    have heads := linked.2.symm.trans other.2
    rw [ih (fun x inside y within => apart x (by simp [inside]) y (by simp [within]))
      linked.1 other.1 (by simpa using length) heads]

/-- When no digest is the starting one, the head alone binds the entries. -/
theorem entries_of_head_only (apart : ∀ x ∈ first, ∀ y ∈ second, digest x = digest y → x = y)
    (fresh : ∀ x, digest x ≠ start) (linked : Linked prev digest start first)
    (other : Linked prev digest start second)
    (same : head digest start first = head digest start second) : first = second := by
  induction first using List.reverseRecOn generalizing second with
  | nil =>
    obtain rfl | ⟨before, y, rfl⟩ := second.eq_nil_or_concat'
    · rfl
    · rw [head_concat] at same
      exact absurd same.symm (fresh y)
  | append_singleton before x ih =>
    obtain rfl | ⟨before', y, rfl⟩ := second.eq_nil_or_concat'
    · rw [head_concat] at same
      exact absurd same (fresh x)
    rw [head_concat, head_concat] at same
    obtain rfl := apart x (by simp) y (by simp) same
    rw [linked_concat] at linked other
    have heads := linked.2.symm.trans other.2
    rw [ih (fun x inside y within => apart x (by simp [inside]) y (by simp [within]))
      linked.1 other.1 heads]

/-- Entries of a chain that link up from the start are its first ones. -/
theorem prefix_of_members (apart : ∀ x ∈ first, ∀ y ∈ first, digest x = digest y → x = y)
    (fresh : ∀ x, digest x ≠ start) (linked : Linked prev digest start first)
    (other : Linked prev digest start second) (members : ∀ x ∈ second, x ∈ first) :
    second <+: first := by
  obtain rfl | ⟨before, y, rfl⟩ := second.eq_nil_or_concat'
  · exact List.nil_prefix
  obtain ⟨front, back, whole⟩ := List.append_of_mem (members y (by simp))
  rw [List.append_cons] at whole
  subst whole
  have cut := ((linked_append start (front ++ [y]) back).mp linked).1
  have same := entries_of_head_only
    (fun x inside z within => apart x (members x inside) z (List.mem_append_left back within))
    fresh other cut (by rw [head_concat, head_concat])
  rw [same]
  exact List.prefix_append _ _

theorem linked_of_prefix (linked : Linked prev digest start first) (cut : second <+: first) :
    Linked prev digest start second := by
  obtain ⟨rest, rfl⟩ := cut
  exact ((linked_append start second rest).mp linked).1

end HashChain
