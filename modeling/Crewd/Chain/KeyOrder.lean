import Crewd.Chain.Canonical
import Mathlib.Data.List.Forall2
import Mathlib.Data.List.Nodup

/-! Canonical texts and the order of keys. Sorting the fields of a value at every depth
gives a value in order, which has the same canonical text; two values have the same
sorted form exactly when they are equal up to the order of keys. -/
namespace Crewd

/-- Each object holds each of its keys once, in whatever order they came. -/
def Json.distinctKeys : Json → Prop
  | .obj fields => (fields.map Prod.fst).Nodup
  | _ => True

def Json.Distinct (value : Json) : Prop := value.Every Json.distinctKeys

/-- Equal up to the order of object keys at every depth: objects agree as maps. -/
inductive Json.Similar : Json → Json → Prop
  | null : Similar .null .null
  | bool (b : Bool) : Similar (.bool b) (.bool b)
  | num (n : Nat) : Similar (.num n) (.num n)
  | neg (n : Nat) : Similar (.neg n) (.neg n)
  | float (number : FloatText) : Similar (.float number) (.float number)
  | str (text : String) : Similar (.str text) (.str text)
  | arr {xs ys : List Json} : xs.length = ys.length →
      (∀ pair ∈ xs.zip ys, Similar pair.1 pair.2) → Similar (.arr xs) (.arr ys)
  | obj {xs ys : List (String × Json)} :
      (∀ key, key ∈ xs.map Prod.fst ↔ key ∈ ys.map Prod.fst) →
      (∀ key x y, (key, x) ∈ xs → (key, y) ∈ ys → Similar x y) → Similar (.obj xs) (.obj ys)

section Sorting
variable {fields : List (String × Json)}

def sortFields (fields : List (String × Json)) : List (String × Json) :=
  fields.mergeSort fun a b => decide (a.1 ≤ b.1)

mutual

/-- The value with the fields of its objects in key order, at every depth. -/
def Json.sorted : Json → Json
  | .arr items => .arr (Json.sortedItems items)
  | .obj fields => .obj (sortFields (Json.sortedFields fields))
  | value => value

def Json.sortedItems : List Json → List Json
  | [] => []
  | item :: rest => item.sorted :: Json.sortedItems rest

def Json.sortedFields : List (String × Json) → List (String × Json)
  | [] => []
  | (key, value) :: rest => (key, value.sorted) :: Json.sortedFields rest

end

theorem sortedItems_eq (items : List Json) : Json.sortedItems items = items.map Json.sorted := by
  induction items with
  | nil => rfl
  | cons item rest ih => rw [Json.sortedItems, ih, List.map_cons]

theorem sortedFields_eq (fields : List (String × Json)) : Json.sortedFields fields =
    fields.map fun field => (field.1, field.2.sorted) := by
  induction fields with
  | nil => rfl
  | cons field rest ih => rw [Json.sortedFields, ih, List.map_cons]

theorem sortedFields_keys (fields : List (String × Json)) :
    (Json.sortedFields fields).map Prod.fst = fields.map Prod.fst := by
  rw [sortedFields_eq, List.map_map]
  rfl

theorem mem_sortFields {field : String × Json} : field ∈ sortFields fields ↔ field ∈ fields := by
  rw [sortFields, List.mem_mergeSort]

theorem sortFields_keys (once : (fields.map Prod.fst).Nodup) :
    ((sortFields fields).map Prod.fst).Pairwise (· < ·) := by
  have ascending : (sortFields fields).Pairwise fun a b => decide (a.1 ≤ b.1) = true :=
    List.pairwise_mergeSort (fun a b c first second => by
      simp only [decide_eq_true_eq] at *
      exact first.trans second) (fun a b => by simpa using le_total a.1 b.1) fields
  have distinct : ((sortFields fields).map Prod.fst).Nodup :=
    ((List.mergeSort_perm fields _).map _).nodup_iff.mpr once
  rw [List.pairwise_map]
  rw [List.Nodup, List.pairwise_map] at distinct
  exact (ascending.and distinct).imp fun ⟨least, apart⟩ => lt_of_le_of_ne (of_decide_eq_true least) apart

/-- Lists of fields with distinct keys sort alike when they hold the same fields. -/
theorem sortFields_eq_iff {xs ys : List (String × Json)} (once : (xs.map Prod.fst).Nodup)
    (once' : (ys.map Prod.fst).Nodup) :
    sortFields xs = sortFields ys ↔ ∀ field, field ∈ xs ↔ field ∈ ys := by
  constructor
  · intro same field
    rw [← mem_sortFields, same, mem_sortFields]
  · intro same
    have perm := (List.perm_ext_iff_of_nodup (List.Nodup.of_map _ once)
      (List.Nodup.of_map _ once')).mpr same
    have sorted : (sortFields xs).Perm (sortFields ys) :=
      (List.mergeSort_perm xs _).trans (perm.trans (List.mergeSort_perm ys _).symm)
    exact List.Perm.eq_of_pairwise (fun a b _ _ less more => absurd more (lt_asymm less))
      (List.pairwise_map.mp (sortFields_keys once)) (List.pairwise_map.mp (sortFields_keys once'))
      sorted

/-- The canonical text is that of the sorted value, whatever order the keys came in. -/
theorem Json.canonical_eq_render_sorted (value : Json) : value.canonical = value.sorted.render := by
  induction value using Json.induct with
  | step value ih =>
    match value with
    | .null => rfl
    | .bool true => rfl
    | .bool false => rfl
    | .num _ => rfl
    | .neg _ => rfl
    | .float _ => rfl
    | .str _ => rfl
    | .arr items =>
      have texts : items.map Json.canonical = (items.map Json.sorted).map Json.render := by
        rw [List.map_map]
        exact List.map_congr_left ih
      have rendered := renderItems_map id (items.map Json.sorted)
      rw [List.map_id] at rendered
      rw [Json.canonical, Json.sorted, Json.render, canonicalItems_eq, sortedItems_eq, texts, rendered]
      rfl
    | .obj fields =>
      have texts : Json.canonicalFields fields = (Json.sortedFields fields).map fun field =>
          (field.1, Json.renderField field) := by
        rw [canonicalFields_eq, sortedFields_eq, List.map_map]
        apply List.map_congr_left
        intro field member
        rw [ih field.2 (List.mem_map_of_mem member)]
        rfl
      have moved := List.map_mergeSort (f := fun field => (field.1, Json.renderField field))
        (l := Json.sortedFields fields) (r := fun a b => decide (a.1 ≤ b.1))
        (s := fun a b => decide (a.1 ≤ b.1)) fun _ _ _ _ => rfl
      rw [Json.canonical, Json.sorted, Json.render, texts, renderFields_eq, sortFields, ← moved,
        List.map_map]
      rfl

end Sorting

section Similarity

/-- Lists with equal images are alike item by item. -/
theorem map_eq_map_iff_zip {α β : Type} {f : α → β} {xs ys : List α} :
    xs.map f = ys.map f ↔ xs.length = ys.length ∧ ∀ pair ∈ xs.zip ys, f pair.1 = f pair.2 := by
  rw [← List.forall₂_eq_eq_eq, List.forall₂_map_left_iff, List.forall₂_map_right_iff,
    List.forall₂_iff_zip]
  exact and_congr_right' ⟨fun all pair member => all member, fun all _ _ member => all _ member⟩

/-- Maps with the same fields after a change of values hold the same keys, and values
under a common key that become equal. -/
theorem mapped_fields_iff {f : Json → Json} {xs ys : List (String × Json)}
    (once : (ys.map Prod.fst).Nodup) :
    (∀ field, field ∈ xs.map (fun field => (field.1, f field.2)) ↔
      field ∈ ys.map fun field => (field.1, f field.2)) ↔
    (∀ key, key ∈ xs.map Prod.fst ↔ key ∈ ys.map Prod.fst) ∧
      ∀ key x y, (key, x) ∈ xs → (key, y) ∈ ys → f x = f y := by
  have mem : ∀ {fields : List (String × Json)} {key value},
      (key, value) ∈ fields.map (fun field => (field.1, f field.2)) ↔
        ∃ x, (key, x) ∈ fields ∧ f x = value := by
    intro fields key value
    simp
  have keys : ∀ {fields : List (String × Json)} {key},
      key ∈ fields.map Prod.fst ↔ ∃ x, (key, x) ∈ fields := by
    intro fields key
    simp
  have unique : ∀ {fields : List (String × Json)} {key x y}, (fields.map Prod.fst).Nodup →
      (key, x) ∈ fields → (key, y) ∈ fields → x = y := by
    intro fields key x y once first second
    exact (Prod.mk.inj (List.inj_on_of_nodup_map once first second rfl)).2
  constructor
  · intro same
    constructor
    · intro key
      rw [keys, keys]
      constructor
      · rintro ⟨x, held⟩
        obtain ⟨y, held', -⟩ := mem.mp ((same _).mp (mem.mpr ⟨x, held, rfl⟩))
        exact ⟨y, held'⟩
      · rintro ⟨y, held⟩
        obtain ⟨x, held', -⟩ := mem.mp ((same _).mpr (mem.mpr ⟨y, held, rfl⟩))
        exact ⟨x, held'⟩
    · intro key x y held held'
      obtain ⟨y', inside, equal⟩ := mem.mp ((same _).mp (mem.mpr ⟨x, held, rfl⟩))
      rw [unique once held' inside, equal]
  · rintro ⟨sameKeys, alike⟩ ⟨key, value⟩
    rw [mem, mem]
    constructor
    · rintro ⟨x, held, rfl⟩
      obtain ⟨y, held'⟩ := keys.mp ((sameKeys key).mp (keys.mpr ⟨x, held⟩))
      exact ⟨y, held', (alike key x y held held').symm⟩
    · rintro ⟨y, held, rfl⟩
      obtain ⟨x, held'⟩ := keys.mp ((sameKeys key).mpr (keys.mpr ⟨y, held⟩))
      exact ⟨x, held', alike key x y held' held⟩

theorem Json.sorted_arr_iff {xs ys : List Json} : (Json.arr xs).sorted = (Json.arr ys).sorted ↔
    xs.length = ys.length ∧ ∀ pair ∈ xs.zip ys, pair.1.sorted = pair.2.sorted := by
  rw [Json.sorted, Json.sorted, Json.arr.injEq, sortedItems_eq, sortedItems_eq, map_eq_map_iff_zip]

theorem Json.sorted_obj_iff {xs ys : List (String × Json)} (once : (xs.map Prod.fst).Nodup)
    (once' : (ys.map Prod.fst).Nodup) : (Json.obj xs).sorted = (Json.obj ys).sorted ↔
      (∀ key, key ∈ xs.map Prod.fst ↔ key ∈ ys.map Prod.fst) ∧
        ∀ key x y, (key, x) ∈ xs → (key, y) ∈ ys → x.sorted = y.sorted := by
  have kept : ((Json.sortedFields xs).map Prod.fst).Nodup := by rwa [sortedFields_keys]
  have kept' : ((Json.sortedFields ys).map Prod.fst).Nodup := by rwa [sortedFields_keys]
  rw [Json.sorted, Json.sorted, Json.obj.injEq, sortFields_eq_iff kept kept', sortedFields_eq,
    sortedFields_eq, mapped_fields_iff once']

/-- Equal up to the order of keys, as equality of the sorted values. -/
theorem Json.similar_iff_sorted (v : Json) : ∀ w : Json, v.Distinct → w.Distinct →
    (v.Similar w ↔ v.sorted = w.sorted) := by
  induction v using Json.induct with
  | step v ih =>
    intro w distinct distinct'
    constructor
    · intro similar
      cases similar with
      | null | bool | num | neg | float | str => rfl
      | @arr xs ys length alike =>
        refine Json.sorted_arr_iff.mpr ⟨length, fun pair member => ?_⟩
        obtain ⟨left, right⟩ := List.of_mem_zip member
        exact (ih _ left _ (distinct.inside _ left) (distinct'.inside _ right)).mp
          (alike pair member)
      | @obj xs ys keys alike =>
        refine (Json.sorted_obj_iff distinct.here distinct'.here).mpr ⟨keys, ?_⟩
        intro key x y held held'
        have left := List.mem_map_of_mem (f := Prod.snd) held
        have right := List.mem_map_of_mem (f := Prod.snd) held'
        exact (ih x left y (distinct.inside x left) (distinct'.inside y right)).mp
          (alike key x y held held')
    · intro same
      match v, w with
      | .null, .null => exact .null
      | .bool a, .bool b =>
        cases same
        exact .bool a
      | .num a, .num b =>
        cases same
        exact .num a
      | .neg a, .neg b =>
        cases same
        exact .neg a
      | .float a, .float b =>
        cases same
        exact .float a
      | .str a, .str b =>
        cases same
        exact .str a
      | .arr xs, .arr ys =>
        obtain ⟨length, alike⟩ := Json.sorted_arr_iff.mp same
        refine .arr length fun pair member => ?_
        obtain ⟨left, right⟩ := List.of_mem_zip member
        exact (ih _ left _ (distinct.inside _ left) (distinct'.inside _ right)).mpr
          (alike pair member)
      | .obj xs, .obj ys =>
        obtain ⟨keys, alike⟩ := (Json.sorted_obj_iff distinct.here distinct'.here).mp same
        refine .obj keys fun key x y held held' => ?_
        have left := List.mem_map_of_mem (f := Prod.snd) held
        have right := List.mem_map_of_mem (f := Prod.snd) held'
        exact (ih x left y (distinct.inside x left) (distinct'.inside y right)).mpr
          (alike key x y held held')

end Similarity

/-- Two values whose objects hold each key once have the same canonical text exactly
when they are equal up to the order of object keys at every depth. -/
theorem canonical_eq_iff_similar (v w : Json) (distinct : v.Distinct) (distinct' : w.Distinct) :
    v.canonical = w.canonical ↔ v.Similar w := by
  rw [Json.similar_iff_sorted v w distinct distinct', Json.canonical_eq_render_sorted,
    Json.canonical_eq_render_sorted]
  constructor
  · intro same
    have none : Ends [] := fun c first => by cases first
    exact (Json.render_split _ _ [] [] none none (by rw [same])).1
  · intro same
    rw [same]

theorem canonical_forgets_key_order :
    (Json.obj [("b", .num 1), ("a", .bool true)]).canonical =
      (Json.obj [("a", .bool true), ("b", .num 1)]).canonical := by
  have leaf : ∀ value : Json, value.children = [] → value.distinctKeys → value.Distinct := by
    intro value none here
    exact .node here (by simp [none])
  have num : (Json.num 1).Distinct := leaf _ rfl trivial
  have bool : (Json.bool true).Distinct := leaf _ rfl trivial
  have first : (Json.obj [("b", .num 1), ("a", .bool true)]).Distinct :=
    .node (by simp [Json.distinctKeys]) (by simpa [Json.children] using ⟨num, bool⟩)
  have second : (Json.obj [("a", .bool true), ("b", .num 1)]).Distinct :=
    .node (by simp [Json.distinctKeys]) (by simpa [Json.children] using ⟨bool, num⟩)
  refine (canonical_eq_iff_similar _ _ first second).mpr (.obj (by simp [or_comm]) ?_)
  intro key x y held held'
  simp only [List.mem_cons, Prod.mk.injEq, List.not_mem_nil, or_false] at held held'
  rcases held with ⟨rfl, rfl⟩ | ⟨rfl, rfl⟩
  · rcases held' with ⟨differs, -⟩ | ⟨-, rfl⟩
    · exact absurd differs (by decide)
    · exact .num 1
  · rcases held' with ⟨-, rfl⟩ | ⟨differs, -⟩
    · exact .bool true
    · exact absurd differs (by decide)

end Crewd
