import Crewd.Chain.Log

/-! Reading JSON: what the members of a value are, and what is known of the reader. It reads
back what the writer wrote and refuses an object that was cut off; such a reader exists. -/
namespace Crewd

section Access

/-- `as_i64`. -/
def Json.asI64 : Json → Option Int
  | .num n => if n < 2 ^ 63 then some n else none
  | .neg n => if n < 2 ^ 63 then some (-(n + 1 : Int)) else none
  | _ => none

def Json.asBool : Json → Option Bool
  | .bool value => some value
  | _ => none

def Json.asArray : Json → Option (List Json)
  | .arr items => some items
  | _ => none

/-- The text under the key, if there is one. -/
def Json.getStr (value : Json) (key : String) : Option String := (value.get key).bind Json.asStr

/-- Whether a value has no parts and is no float, and a number has 64 bits. -/
def Json.scalar : Json → Bool
  | .null | .bool _ | .str _ => true
  | .num n => decide (n < 2 ^ 64)
  | .neg n => decide (n < 2 ^ 63)
  | .float _ | .arr _ | .obj _ => false

/-- A value that `serde_json` reads back: it holds no floats and no numbers past 64 bits,
and nests arrays and objects no deeper than that. -/
inductive Json.Readable : Nat → Json → Prop where
  | scalar {depth : Nat} {value : Json} (plain : value.scalar = true) : Readable depth value
  | arr {depth : Nat} {items : List Json} (inside : ∀ item ∈ items, Readable depth item) :
      Readable (depth + 1) (.arr items)
  | obj {depth : Nat} {fields : List (String × Json)}
      (inside : ∀ value ∈ fields.map Prod.snd, Readable depth value) :
      Readable (depth + 1) (.obj fields)

theorem Json.readable_flat {depth : Nat} {fields : List (String × Json)}
    (flat : ∀ value ∈ fields.map Prod.snd, value.scalar = true) :
    Json.Readable (depth + 1) (.obj fields) :=
  .obj fun value member => .scalar (flat value member)

end Access

section Trimming

def trimStart (text : List Char) : List Char := text.dropWhile whiteSpace

def trimEnd (text : List Char) : List Char := (text.reverse.dropWhile whiteSpace).reverse

def trim (text : List Char) : List Char := trimEnd (trimStart text)

variable {text inner : List Char}

theorem trimEnd_concat {c : Char} (solid : whiteSpace c = false) :
    trimEnd (text ++ [c]) = text ++ [c] := by
  simp [trimEnd, solid]

theorem trimEnd_space {c : Char} (blank : whiteSpace c = true) :
    trimEnd (text ++ [c]) = trimEnd text := by
  simp [trimEnd, blank]

theorem trimEnd_cut (text : List Char) : trimEnd text <+: text := by
  rw [trimEnd, ← List.reverse_suffix, List.reverse_reverse]
  exact List.dropWhile_suffix _

/-- The text of an object is all that is left of its line. -/
theorem trim_object (fields : List (String × Json)) :
    trim ((Json.obj fields).render ++ ['\n']) = (Json.obj fields).render := by
  have opening : whiteSpace '{' = false := by decide
  have closing : whiteSpace '}' = false := by decide
  have feed : whiteSpace '\n' = true := by decide
  rw [trim, trimStart, Json.render, List.cons_append, List.cons_append, List.dropWhile_cons_of_neg
    (by simp [opening]), ← List.cons_append, trimEnd_space feed, ← List.cons_append,
    trimEnd_concat closing]

end Trimming

section Order

mutual

/-- Whether the objects in a value have their keys in order. -/
def Json.inOrder : Json → Bool
  | .arr items => Json.itemsInOrder items
  | .obj fields => decide ((fields.map Prod.fst).Pairwise (· < ·)) && Json.fieldsInOrder fields
  | _ => true

def Json.itemsInOrder : List Json → Bool
  | [] => true
  | item :: rest => item.inOrder && Json.itemsInOrder rest

def Json.fieldsInOrder : List (String × Json) → Bool
  | [] => true
  | (_, value) :: rest => value.inOrder && Json.fieldsInOrder rest

end

theorem itemsInOrder_iff (items : List Json) :
    Json.itemsInOrder items = true ↔ ∀ item ∈ items, item.inOrder = true := by
  induction items with
  | nil => simp [Json.itemsInOrder]
  | cons item rest ih => simp [Json.itemsInOrder, ih]

theorem fieldsInOrder_iff (fields : List (String × Json)) :
    Json.fieldsInOrder fields = true ↔ ∀ value ∈ fields.map Prod.snd, value.inOrder = true := by
  induction fields with
  | nil => simp [Json.fieldsInOrder]
  | cons field rest ih => simp [Json.fieldsInOrder, ih]

theorem Json.ordered_of_inOrder {value : Json} (checked : value.inOrder = true) : value.Ordered := by
  induction value using Json.induct with
  | step value ih =>
    match value with
    | .null | .bool _ | .num _ | .neg _ | .float _ | .str _ =>
      exact .node trivial (by simp [Json.children])
    | .arr items =>
      have inside := (itemsInOrder_iff items).mp checked
      exact .node trivial fun child member => ih child member (inside child member)
    | .obj fields =>
      rw [Json.inOrder, Bool.and_eq_true, decide_eq_true_eq] at checked
      have inside := (fieldsInOrder_iff fields).mp checked.2
      exact .node checked.1 fun child member => ih child member (inside child member)

end Order

section Readers

/-- How deep the reader follows arrays and objects: its limit is 128. -/
def readDepth : Nat := 127

/-- The reader gives back every readable value from what was written of it, and takes no part
of an object for a value. -/
structure ReadsWritten [SerdeJson] : Prop where
  whole : ∀ value : Value, value.1.Readable readDepth →
    SerdeJson.fromStr value.1.render = some value
  cut : ∀ (fields : List (String × Json)) (text rest : List Char), rest ≠ [] →
    text ++ rest = (Json.obj fields).render → SerdeJson.fromStr text = none

theorem Json.render_injective : Function.Injective Json.render := by
  intro v w same
  have ends : Ends [] := by simp [Ends]
  exact (Json.render_split v w [] [] ends ends (by rw [same])).1

/-- A value is no proper part of an object. -/
theorem Json.render_not_cut {fields : List (String × Json)} {v : Json} {rest : List Char}
    (more : rest ≠ []) : v.render ++ rest ≠ (Json.obj fields).render := by
  intro same
  have opens : v.lead = '{' := by
    obtain ⟨c, others, first, lead⟩ := render_lead v
    rw [first] at same
    rw [← lead, (List.cons.inj same).1]
    decide
  match v with
  | .obj inner =>
    have ended : (Json.obj inner).render ++ rest = (Json.obj fields).render ++ [] := by
      rw [List.append_nil, same]
    exact more (object_split ended).2
  | .null | .bool true | .bool false | .num _ | .neg _ | .float _ | .str _ | .arr _ =>
    exact absurd opens (by simp [Json.lead])

open Classical in
/-- A reader that reads what is written, and nothing else. -/
noncomputable abbrev SerdeJson.ofWritten : SerdeJson where
  fromStr text := if written : ∃ value : Value, value.1.render = text then some written.choose else none

theorem readsWritten_ofWritten : @ReadsWritten SerdeJson.ofWritten := by
  let _ := SerdeJson.ofWritten
  constructor
  · intro value _
    have written : ∃ other : Value, other.1.render = value.1.render := ⟨value, rfl⟩
    have read : SerdeJson.ofWritten.fromStr value.1.render = some written.choose := dif_pos written
    rw [read]
    exact congrArg some (Subtype.ext (Json.render_injective written.choose_spec))
  · intro fields text rest more same
    apply dif_neg
    rintro ⟨value, rfl⟩
    exact Json.render_not_cut more same

/-- A reader that can be evaluated: it knows these values only, each on a line or alone. -/
@[reducible] def SerdeJson.ofValues (values : List Json) : SerdeJson where
  fromStr text := values.findSome? fun value =>
    if checked : value.inOrder = true then
      if text = value.render ∨ text = value.render ++ ['\n'] then
        some ⟨value, Json.ordered_of_inOrder checked⟩
      else none
    else none

end Readers
end Crewd
