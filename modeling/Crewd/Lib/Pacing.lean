import Mathlib.Algebra.BigOperators.Group.Finset.Piecewise
import Mathlib.Algebra.Order.BigOperators.Group.Finset

/-! Sliding windows. A limiter admits units while fewer than a limit were admitted in
the stretch of time before; it keeps the times of what it has admitted and drops those
that are too old, or all of them when it starts anew. The book of all admissions says
what it has really let through. -/
namespace Pacing

variable {κ : Type} {width limit life : Nat} {tried tried' : Nat → Prop}

/-- An admission: its time, its units, and how often the limiter had started. -/
structure Entry where
  time : Nat
  units : Nat
  life : Nat

/-- What an entry contributes, where it counts. -/
def weight (counts : Entry → Prop) [DecidablePred counts] : Option Entry → Nat
  | some e => if counts e then e.units else 0
  | none => 0

def booked (counts : Entry → Prop) [DecidablePred counts] (book : κ → Option Entry)
    (keys : Finset κ) : Nat :=
  ∑ k ∈ keys, weight counts (book k)

variable {counts more : Entry → Prop} [DecidablePred counts] [DecidablePred more]
  {book book' : κ → Option Entry} {keys keys' : Finset κ}

theorem booked_le (covers : ∀ k e, book k = some e → counts e → 0 < e.units →
      ∃ f, book' k = some f ∧ more f ∧ e.units ≤ f.units) :
    booked counts book keys ≤ booked more book' keys := by
  apply Finset.sum_le_sum
  intro k _
  cases found : book k with
  | none => exact Nat.zero_le _
  | some e =>
    by_cases counted : counts e ∧ 0 < e.units
    · obtain ⟨f, found', counts', fewer⟩ := covers k e found counted.1 counted.2
      simpa [weight, found', counts', counted.1] using fewer
    · have none : weight counts (some e) = 0 := by
        by_cases inside : counts e
        · have free : e.units = 0 := Nat.eq_zero_of_not_pos fun positive => counted ⟨inside, positive⟩
          simp [weight, free]
        · simp [weight, inside]
      rw [none]
      exact Nat.zero_le _

theorem booked_mono (wider : ∀ k e, book k = some e → counts e → more e) :
    booked counts book keys ≤ booked more book keys :=
  booked_le fun k e found counted _ => ⟨e, found, wider k e found counted, Nat.le_refl _⟩

/-- One more entry. -/
theorem booked_enter [DecidableEq κ] {k : κ} {e : Entry} (inside : k ∈ keys)
    (fresh : book k = none) (entered : book' k = some e) (others : ∀ j, j ≠ k → book' j = book j) :
    booked counts book' keys = booked counts book keys + if counts e then e.units else 0 := by
  have split : ∀ j ∈ keys, weight counts (book' j) =
      weight counts (book j) + if j = k then weight counts (some e) else 0 := by
    intro j _
    by_cases same : j = k
    · subst same
      simp [fresh, entered, weight]
    · simp [same, others j same]
  unfold booked
  rw [Finset.sum_congr rfl split, Finset.sum_add_distrib, Finset.sum_ite_eq', if_pos inside]
  rfl

theorem booked_widen (wider : keys ⊆ keys') (inside : ∀ k, k ∉ keys → book k = none) :
    booked counts book keys' = booked counts book keys := by
  symm
  apply Finset.sum_subset wider
  intro k _ outside
  rw [inside k outside, weight]

theorem booked_eq_zero (none : ∀ k e, book k = some e → ¬ counts e) :
    booked counts book keys = 0 := by
  apply Finset.sum_eq_zero
  intro k _
  cases found : book k with
  | none => rfl
  | some e => exact if_neg (none k e found)

/-- In no stretch of that width are more units booked than the limit. -/
def Spaced (width limit : Nat) (book : κ → Option Entry) (keys : Finset κ) : Prop :=
  ∀ start, booked (fun e => start ≤ e.time ∧ e.time < start + width) book keys ≤ limit

theorem spaced_empty (none : ∀ k, book k = none) : Spaced width limit book keys := by
  intro start
  rw [booked_eq_zero fun k e found => ?_]
  · exact Nat.zero_le _
  · cases (none k).symm.trans found

/-- An entry for which there is room beside all that still counts at its time. -/
theorem Spaced.enter [DecidableEq κ] {k : κ} {e : Entry} (spaced : Spaced width limit book keys)
    (inside : k ∈ keys) (fresh : book k = none) (entered : book' k = some e)
    (others : ∀ j, j ≠ k → book' j = book j)
    (room : 0 < e.units → booked (fun f => e.time < f.time + width) book keys + e.units ≤ limit) :
    Spaced width limit book' keys := by
  intro start
  have before := spaced start
  rw [booked_enter inside fresh entered others]
  split
  · next within =>
    have counting : booked (fun f => start ≤ f.time ∧ f.time < start + width) book keys ≤
        booked (fun f => e.time < f.time + width) book keys :=
      booked_mono fun _ f _ ⟨after, _⟩ => by omega
    omega
  · exact before

/-- The window accounts for what is booked, except for entries that were too old for an
attempt that has been made already, or that an earlier life has made. -/
structure Paced (width limit : Nat) (tried : Nat → Prop) (life : Nat) (book : κ → Option Entry)
    (keys : Finset κ) (window : List Nat) : Prop where
  inside : ∀ k, k ∉ keys → book k = none
  spaced : Spaced width limit book keys
  lived : ∀ k e, book k = some e → e.life ≤ life
  noted : ∀ time ∈ window, ∃ k e, book k = some e ∧ e.time = time
  covered : ∀ start,
    (∀ k e, book k = some e → ∀ t, tried t → e.time + width ≤ t → e.time < start) →
    booked (fun e => e.life = life ∧ start ≤ e.time) book keys ≤ window.countP (start ≤ ·)

/-- An entry that the limiter either need not know of at that time or still knows of. -/
def Recalled (width : Nat) (tried : Nat → Prop) (life now : Nat) (e : Entry) : Prop :=
  e.time + width ≤ now ∨ e.life = life ∧ ∀ t, tried t → t < e.time + width

namespace Paced
variable {window old kept : List Nat} {now : Nat}

/-- What is dropped does not count in a stretch in which the limiter accounts for all. -/
theorem countP_dropped {start : Nat} (stale : ∀ time ∈ old, time < start) :
    (old ++ kept).countP (start ≤ ·) = kept.countP (start ≤ ·) := by
  rw [List.countP_append, List.countP_eq_zero.mpr, Nat.zero_add]
  intro time member
  have before := stale time member
  simpa using before

/-- At an attempt the window holds all that still counts, if all of that is known. -/
theorem booked_le_length (paced : Paced width limit tried life book keys (old ++ kept))
    (stale : ∀ time ∈ old, time + width ≤ now)
    (recalled : ∀ k e, book k = some e → Recalled width tried life now e) :
    booked (fun e => now < e.time + width) book keys ≤ kept.length := by
  have covers := paced.covered (now + 1 - width) fun k e found t was late => by
    rcases recalled k e found with before | ⟨_, recent⟩
    · omega
    · have soon := recent t was
      omega
  rw [countP_dropped fun time member => by have := stale time member; omega] at covers
  calc booked (fun e => now < e.time + width) book keys
      ≤ booked (fun e => e.life = life ∧ now + 1 - width ≤ e.time) book keys :=
        booked_mono fun k e found counts => by
          rcases recalled k e found with before | ⟨same, _⟩
          · omega
          · exact ⟨same, by omega⟩
    _ ≤ kept.countP (now + 1 - width ≤ ·) := covers
    _ ≤ kept.length := List.countP_le_length

/-- An attempt that is refused only drops what is too old. -/
theorem refused (paced : Paced width limit tried life book keys (old ++ kept))
    (stale : ∀ time ∈ old, time + width ≤ now) (again : ∀ t, tried t → tried' t)
    (tries : tried' now) : Paced width limit tried' life book keys kept where
  inside := paced.inside
  spaced := paced.spaced
  lived := paced.lived
  noted time member := paced.noted time (List.mem_append_right old member)
  covered start after := by
    have covers := paced.covered start fun k e found t was late => after k e found t (again t was) late
    rwa [countP_dropped] at covers
    intro time member
    obtain ⟨k, e, found, rfl⟩ := paced.noted time (List.mem_append_left kept member)
    exact after k e found now tries (stale e.time member)

/-- An attempt that is admitted, while the limiter knows all that counts. -/
theorem admitted [DecidableEq κ] {k : κ} {e : Entry}
    (paced : Paced width limit tried e.life book keys (old ++ kept))
    (stale : ∀ time ∈ old, time + width ≤ e.time) (again : ∀ t, tried t → tried' t)
    (tries : tried' e.time) (member : k ∈ keys) (fresh : book k = none)
    (entered : book' k = some e) (others : ∀ j, j ≠ k → book' j = book j)
    (room : kept.length + e.units ≤ limit)
    (recalled : ∀ j f, book j = some f → Recalled width tried e.life e.time f) :
    Paced width limit tried' e.life book' keys (kept ++ List.replicate e.units e.time) := by
  have found : ∀ j f, book j = some f → book' j = some f := by
    intro j f was
    rw [others j, was]
    rintro rfl
    cases fresh.symm.trans was
  have cases' : ∀ j f, book' j = some f → f = e ∨ book j = some f := by
    intro j f now
    by_cases same : j = k
    · subst same
      exact .inl (Option.some.inj (now.symm.trans entered))
    · exact .inr ((others j same).symm.trans now)
  have full := paced.booked_le_length stale recalled
  refine ⟨?_, paced.spaced.enter member fresh entered others (fun _ => by omega), ?_, ?_, ?_⟩
  · intro j outside
    rw [others j, paced.inside j outside]
    rintro rfl
    exact outside member
  · intro j f now
    rcases cases' j f now with rfl | was
    · exact Nat.le_refl _
    · exact paced.lived j f was
  · intro time inside
    rcases List.mem_append.mp inside with before | new
    · obtain ⟨j, f, was, same⟩ := paced.noted time (List.mem_append_right old before)
      exact ⟨j, f, found j f was, same⟩
    · exact ⟨k, e, entered, (List.eq_of_mem_replicate new).symm⟩
  · intro start after
    have covers := (paced.refused stale again tries).covered start fun j f was =>
      after j f (found j f was)
    rw [booked_enter member fresh entered others, List.countP_append, List.countP_replicate]
    by_cases counts : start ≤ e.time
    · simp only [true_and, counts, if_true, decide_true]
      omega
    · simpa [counts] using covers

/-- A limiter that starts anew has an empty window, and has made no entry yet. -/
theorem restarted {life' : Nat} (paced : Paced width limit tried life book keys window)
    (later : life < life') : Paced width limit tried life' book keys [] where
  inside := paced.inside
  spaced := paced.spaced
  lived k e found := Nat.le_trans (paced.lived k e found) (Nat.le_of_lt later)
  noted _ member := by cases member
  covered start _ := by
    rw [booked_eq_zero fun k e found counts => ?_]
    · exact Nat.zero_le _
    · have before := paced.lived k e found
      omega

/-- The same book, over more keys. -/
theorem moved (paced : Paced width limit tried life book keys window) (wider : keys ⊆ keys')
    (same : ∀ k, book' k = book k) (again : ∀ t, tried t → tried' t) :
    Paced width limit tried' life book' keys' window := by
  obtain rfl := funext same
  have none : ∀ k, k ∉ keys' → book' k = none :=
    fun k outside => paced.inside k fun member => outside (wider member)
  refine ⟨none, fun start => ?_, paced.lived, paced.noted, fun start after => ?_⟩
  · rw [booked_widen wider paced.inside]
    exact paced.spaced start
  · rw [booked_widen wider paced.inside]
    exact paced.covered start fun k e found t was => after k e found t (again t was)

/-- Nothing booked, nothing kept. -/
theorem empty (none : ∀ k, book k = none) : Paced width limit tried life book keys [] where
  inside k _ := none k
  spaced := spaced_empty none
  lived k e found := by cases (none k).symm.trans found
  noted _ member := by cases member
  covered start _ := by
    rw [booked_eq_zero fun k e found => ?_]
    · exact Nat.zero_le _
    · cases (none k).symm.trans found

end Paced
end Pacing
