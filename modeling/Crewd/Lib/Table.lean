import Mathlib.Data.List.Basic

/-! Tables as lists of rows in insertion order: the two ways a row changes are
`INSERT OR REPLACE` and an `UPDATE` over the rows that satisfy a condition. Maps
are lists of entries, each key once. -/
namespace Table

variable {α β : Type} {same p : α → Bool} {f : α → α} {row r : α} {rows : List α}

/-- Drop the rows with the key of the new one, and append it. -/
def replaceInto (same : α → Bool) (row : α) (rows : List α) : List α :=
  rows.filter (fun r => !same r) ++ [row]

def updateWhere (p : α → Bool) (f : α → α) (rows : List α) : List α :=
  rows.map fun r => if p r then f r else r

theorem mem_replaceInto :
    r ∈ replaceInto same row rows ↔ (r ∈ rows ∧ same r = false) ∨ r = row := by
  simp [replaceInto]

theorem replaceInto_new (new : ∀ r ∈ rows, same r = false) :
    replaceInto same row rows = rows ++ [row] := by
  have kept : rows.filter (fun r => !same r) = rows :=
    List.filter_eq_self.mpr fun r hr => by simp [new r hr]
  rw [replaceInto, kept]

theorem mem_updateWhere :
    r ∈ updateWhere p f rows ↔ ∃ old ∈ rows, r = if p old then f old else old := by
  simp only [updateWhere, List.mem_map, eq_comm]

/-- An update that leaves the key alone leaves the column of keys alone. -/
theorem map_updateWhere {key : α → β} (keeps : ∀ r ∈ rows, p r → key (f r) = key r) :
    (updateWhere p f rows).map key = rows.map key := by
  rw [updateWhere, List.map_map]
  refine List.map_congr_left fun r hr => ?_
  by_cases hp : p r
  · simp [hp, keeps r hr hp]
  · simp [hp]

/-- A list whose rows are all one row, which stands there once. -/
theorem length_le_one (once : rows.Nodup) (same : ∀ r ∈ rows, ∀ r' ∈ rows, r = r') :
    rows.length ≤ 1 := by
  match rows with
  | [] => exact Nat.zero_le _
  | [_] => exact Nat.le_refl _
  | r :: r' :: rest =>
    have absent := (List.nodup_cons.mp once).1
    rw [same r (by simp) r' (by simp)] at absent
    exact absurd List.mem_cons_self absent

/-- What stands before and behind a row in a part of the table stood there before. -/
theorem sublist_around {before behind earlier later : List α}
    (once : (earlier ++ row :: later).Nodup)
    (part : (before ++ row :: behind).Sublist (earlier ++ row :: later)) :
    before.Sublist earlier ∧ behind.Sublist later := by
  obtain ⟨_, tail, apart⟩ := List.nodup_append.mp once
  have absent : row ∉ earlier := fun inside => apart _ inside _ List.mem_cons_self rfl
  have after : row ∉ later := (List.nodup_cons.mp tail).1
  obtain ⟨first, second, split, firstPart, secondPart⟩ := List.sublist_append_iff.mp part
  rcases List.append_eq_append_iff.mp split with ⟨rest, rfl, tailSplit⟩ | ⟨rest, rfl, tailSplit⟩
  · cases rest with
    | nil =>
      rw [← (show row :: behind = second from tailSplit)] at secondPart
      rw [List.append_nil] at firstPart
      exact ⟨firstPart, List.cons_sublist_cons.mp secondPart⟩
    | cons r rest =>
      cases (List.cons.inj tailSplit).1
      exact absurd (firstPart.subset (by simp)) absent
  · rw [tailSplit] at secondPart
    rcases List.sublist_cons_iff.mp secondPart with inside | ⟨_, same, inside⟩
    · exact absurd (inside.subset (by simp)) after
    · cases rest with
      | nil =>
        rw [← (List.cons.inj same).2] at inside
        rw [List.append_nil]
        exact ⟨firstPart, inside⟩
      | cons r rest =>
        rw [← (List.cons.inj same).2] at inside
        exact absurd (inside.subset (by simp)) after

section Maps
variable {κ : Type} [DecidableEq κ] {key : κ} {value : β} {entries : List (κ × β)}

def without (key : κ) (entries : List (κ × β)) : List (κ × β) :=
  entries.filter fun entry => entry.1 ≠ key

def put (key : κ) (value : β) (entries : List (κ × β)) : List (κ × β) :=
  (key, value) :: without key entries

def alter (key : κ) (f : β → β) (entries : List (κ × β)) : List (κ × β) :=
  entries.map fun entry => if entry.1 = key then (entry.1, f entry.2) else entry

theorem mem_without {entry : κ × β} :
    entry ∈ without key entries ↔ entry ∈ entries ∧ entry.1 ≠ key := by
  simp [without]

theorem mem_put {entry : κ × β} :
    entry ∈ put key value entries ↔ entry = (key, value) ∨ (entry ∈ entries ∧ entry.1 ≠ key) := by
  simp [put, mem_without]

theorem mem_alter {f : β → β} {entry : κ × β} : entry ∈ alter key f entries ↔
    ∃ old ∈ entries, entry = if old.1 = key then (old.1, f old.2) else old := by
  simp only [alter, List.mem_map, eq_comm]

theorem mem_of_lookup (found : entries.lookup key = some value) : (key, value) ∈ entries := by
  obtain ⟨before, after, rfl, _⟩ := List.lookup_eq_some_iff.mp found
  exact List.mem_append_right _ List.mem_cons_self

theorem lookup_of_mem (once : (entries.map (·.1)).Nodup) (member : (key, value) ∈ entries) :
    entries.lookup key = some value := by
  obtain ⟨before, after, rfl⟩ := List.append_of_mem member
  rw [List.map_append, List.map_cons, List.nodup_append] at once
  apply List.lookup_eq_some_iff.mpr
  refine ⟨before, after, rfl, ?_⟩
  intro entry inside
  have apart := once.2.2 entry.1 (List.mem_map_of_mem inside) key List.mem_cons_self
  simpa using apart.symm

theorem lookup_without (entries : List (κ × β)) : (without key entries).lookup key = none := by
  apply List.lookup_eq_none_iff.mpr
  intro entry member
  have apart := (mem_without.mp member).2
  simpa using fun same : key = entry.1 => apart same.symm

theorem lookup_without_of_ne {other : κ} (apart : other ≠ key) :
    (without key entries).lookup other = entries.lookup other := by
  induction entries with
  | nil => rfl
  | cons entry rest ih =>
    obtain ⟨k, v⟩ := entry
    by_cases dropped : k = key
    · have tail : without key ((k, v) :: rest) = without key rest := by simp [without, dropped]
      have different : other ≠ k := fun same => apart (same.trans dropped)
      rw [tail, ih, List.lookup_cons, beq_false_of_ne different]
    · have kept : without key ((k, v) :: rest) = (k, v) :: without key rest := by
        simp [without, dropped]
      rw [kept, List.lookup_cons, List.lookup_cons, ih]

theorem lookup_put {other : κ} : (put key value entries).lookup other =
    if other = key then some value else entries.lookup other := by
  rw [put, List.lookup_cons]
  split
  · rename_i same
    rw [if_pos (eq_of_beq same)]
  · rename_i apart
    have different : other ≠ key := ne_of_beq_false apart
    rw [if_neg different, lookup_without_of_ne different]

theorem lookup_alter {f : β → β} {other : κ} : (alter key f entries).lookup other =
    if other = key then (entries.lookup other).map f else entries.lookup other := by
  induction entries with
  | nil => simp [alter]
  | cons entry rest ih =>
    obtain ⟨k, v⟩ := entry
    by_cases here : other = k
    · subst here
      by_cases named : other = key
      · simp [alter, named]
      · simp [alter, named]
    · have head : ∀ value, List.lookup other ((k, value) :: alter key f rest) =
          (alter key f rest).lookup other := by
        intro value
        rw [List.lookup_cons, beq_false_of_ne here]
      have cons : alter key f ((k, v) :: rest) =
          (k, if k = key then f v else v) :: alter key f rest := by
        by_cases named : k = key <;> simp [alter, named]
      rw [cons, head, ih, List.lookup_cons, beq_false_of_ne here]

end Maps
end Table
