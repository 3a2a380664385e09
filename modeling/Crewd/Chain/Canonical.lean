import Crewd.Wire
import Mathlib.Data.String.Basic

/-! Canonical JSON: object keys sorted at every depth and no insignificant
whitespace. The text of a value ends where the value ends, so that it can be
read back from the front of a longer text. -/
namespace Crewd

section Values

def Json.children : Json → List Json
  | .arr items => items
  | .obj fields => fields.map Prod.snd
  | _ => []

/-- A property of a value and of every value inside it. -/
inductive Json.Every (p : Json → Prop) : Json → Prop
  | node {value : Json} : p value → (∀ child ∈ value.children, Every p child) → Every p value

theorem Json.Every.here {p : Json → Prop} {value : Json} : value.Every p → p value
  | .node here _ => here

theorem Json.Every.inside {p : Json → Prop} {value : Json} :
    value.Every p → ∀ child ∈ value.children, child.Every p
  | .node _ inside => inside

mutual

theorem Json.induct {p : Json → Prop}
    (step : ∀ value : Json, (∀ child ∈ value.children, p child) → p value) : ∀ value, p value
  | .null => step _ (by simp [Json.children])
  | .bool _ => step _ (by simp [Json.children])
  | .num _ => step _ (by simp [Json.children])
  | .neg _ => step _ (by simp [Json.children])
  | .float _ => step _ (by simp [Json.children])
  | .str _ => step _ (by simp [Json.children])
  | .arr items => step _ (Json.induct_items step items)
  | .obj fields => step _ (Json.induct_fields step fields)

theorem Json.induct_items {p : Json → Prop}
    (step : ∀ value : Json, (∀ child ∈ value.children, p child) → p value) :
    ∀ items : List Json, ∀ child ∈ items, p child
  | [] => by simp
  | item :: rest => by
    have here := Json.induct step item
    have later := Json.induct_items step rest
    simpa using ⟨here, later⟩

theorem Json.induct_fields {p : Json → Prop}
    (step : ∀ value : Json, (∀ child ∈ value.children, p child) → p value) :
    ∀ fields : List (String × Json), ∀ child ∈ fields.map Prod.snd, p child
  | [] => by simp
  | (_, value) :: rest => by
    have here := Json.induct step value
    have later := Json.induct_fields step rest
    rw [List.map_cons, List.forall_mem_cons]
    exact ⟨here, later⟩

end

def Json.sortedKeys : Json → Prop
  | .obj fields => (fields.map Prod.fst).Pairwise (· < ·)
  | _ => True

def Json.notFloat : Json → Prop
  | .float _ => False
  | _ => True

/-- Objects keep their keys in order and each once, as the maps of `serde_json` do. -/
def Json.Ordered (value : Json) : Prop := value.Every Json.sortedKeys

def Json.FloatFree (value : Json) : Prop := value.Every Json.notFloat

end Values

section Writing

mutual

/-- `to_canonical_json`. -/
def Json.canonical : Json → List Char
  | .null => ['n', 'u', 'l', 'l']
  | .bool true => ['t', 'r', 'u', 'e']
  | .bool false => ['f', 'a', 'l', 's', 'e']
  | .num n => Nat.toDigits 10 n
  | .neg n => '-' :: Nat.toDigits 10 (n + 1)
  | .float number => number.text
  | .str text => quoted text
  | .arr items => '[' :: separated (Json.canonicalItems items) ++ [']']
  | .obj fields =>
    let sorted := (Json.canonicalFields fields).mergeSort fun a b => decide (a.1 ≤ b.1)
    '{' :: separated (sorted.map Prod.snd) ++ ['}']

def Json.canonicalItems : List Json → List (List Char)
  | [] => []
  | item :: rest => item.canonical :: Json.canonicalItems rest

/-- Each field under its key. -/
def Json.canonicalFields : List (String × Json) → List (String × List Char)
  | [] => []
  | (key, value) :: rest =>
    (key, quoted key ++ ':' :: value.canonical) :: Json.canonicalFields rest

end

theorem canonicalItems_eq (items : List Json) :
    Json.canonicalItems items = items.map Json.canonical := by
  induction items with
  | nil => rfl
  | cons item rest ih => rw [Json.canonicalItems, ih, List.map_cons]

theorem canonicalFields_eq (fields : List (String × Json)) : Json.canonicalFields fields =
    fields.map fun field => (field.1, quoted field.1 ++ ':' :: field.2.canonical) := by
  induction fields with
  | nil => rfl
  | cons field rest ih => rw [Json.canonicalFields, ih, List.map_cons]

/-- On a value whose maps are in order, sorting changes nothing. -/
theorem Json.canonical_eq_render {value : Json} (ordered : value.Ordered) :
    value.canonical = value.render := by
  induction ordered with
  | @node value here _ ih =>
    match value with
    | .null => rfl
    | .bool true => rfl
    | .bool false => rfl
    | .num _ => rfl
    | .neg _ => rfl
    | .float _ => rfl
    | .str _ => rfl
    | .arr items =>
      have items' : items.map Json.canonical = items.map Json.render := List.map_congr_left ih
      have rendered := renderItems_map id items
      rw [List.map_id] at rendered
      rw [Json.canonical, Json.render, canonicalItems_eq, items', rendered]
      rfl
    | .obj fields =>
      have texts : (Json.canonicalFields fields).map Prod.snd = Json.renderFields fields := by
        rw [canonicalFields_eq, renderFields_eq, List.map_map]
        apply List.map_congr_left
        rintro ⟨key, field⟩ member
        simp only [Function.comp_apply, Json.renderField]
        rw [ih field (List.mem_map_of_mem (f := Prod.snd) member)]
      have keys : (Json.canonicalFields fields).map Prod.fst = fields.map Prod.fst := by
        rw [canonicalFields_eq, List.map_map]
        rfl
      have sorted : (Json.canonicalFields fields).Pairwise fun a b => decide (a.1 ≤ b.1) = true := by
        have pairs : ((Json.canonicalFields fields).map Prod.fst).Pairwise (· < ·) := keys ▸ here
        rw [List.pairwise_map] at pairs
        exact pairs.imp fun less => decide_eq_true less.le
      rw [Json.canonical, Json.render, List.mergeSort_of_pairwise sorted, texts]

end Writing

section Reading

def hexValue (c : Char) : Nat := if c.isDigit then c.toNat - 48 else c.toNat - 87

/-- The character at the front of an escaped text, and what follows it. -/
def readEscaped : List Char → Char × List Char
  | '\\' :: 'b' :: rest => (Char.ofNat 8, rest)
  | '\\' :: 't' :: rest => (Char.ofNat 9, rest)
  | '\\' :: 'n' :: rest => (Char.ofNat 10, rest)
  | '\\' :: 'f' :: rest => (Char.ofNat 12, rest)
  | '\\' :: 'r' :: rest => (Char.ofNat 13, rest)
  | '\\' :: 'u' :: _ :: _ :: high :: low :: rest =>
    (Char.ofNat (16 * hexValue high + hexValue low), rest)
  | '\\' :: c :: rest => (c, rest)
  | c :: rest => (c, rest)
  | [] => ('"', [])

theorem hexValue_hexDigit : ∀ n < 16, hexValue (hexDigit n) = n := by decide

theorem readEscaped_escapeChar (c : Char) (rest : List Char) :
    readEscaped (escapeChar c ++ rest) = (c, rest) := by
  unfold escapeChar
  by_cases quote : c = '"'
  · subst quote
    rfl
  by_cases slash : c = '\\'
  · subst slash
    rfl
  have self := Char.ofNat_toNat c
  have known : ∀ {n}, c.toNat = n → c = Char.ofNat n := fun same => same ▸ self.symm
  simp only [if_neg quote, if_neg slash]
  split
  case h_1 same => rw [known same]; rfl
  case h_2 same => rw [known same]; rfl
  case h_3 same => rw [known same]; rfl
  case h_4 same => rw [known same]; rfl
  case h_5 same => rw [known same]; rfl
  case h_6 =>
    split_ifs with control
    · have high := hexValue_hexDigit (c.toNat / 16) (by omega)
      have low := hexValue_hexDigit (c.toNat % 16) (by omega)
      simp only [List.cons_append, List.nil_append, readEscaped, high, low, Nat.div_add_mod, self]
    · simp only [List.cons_append, List.nil_append]
      rw [readEscaped]
      all_goals intros
      all_goals simp_all

theorem escapeChar_split {c d : Char} {s t : List Char}
    (same : escapeChar c ++ s = escapeChar d ++ t) : c = d ∧ s = t := by
  have read := congrArg readEscaped same
  rw [readEscaped_escapeChar, readEscaped_escapeChar] at read
  exact Prod.mk.inj read

theorem escapeChar_ne_quote (c : Char) (s t : List Char) : escapeChar c ++ s ≠ '"' :: t := by
  intro same
  have read := congrArg readEscaped same
  rw [readEscaped_escapeChar] at read
  obtain ⟨rfl, -⟩ := Prod.mk.inj read
  exact absurd (List.cons.inj same).1 (by decide)

theorem quoted_split {x y : String} {s t : List Char} (same : quoted x ++ s = quoted y ++ t) :
    x = y ∧ s = t := by
  have escaped : ∀ (xs ys : List Char),
      xs.flatMap escapeChar ++ '"' :: s = ys.flatMap escapeChar ++ '"' :: t → xs = ys ∧ s = t := by
    intro xs
    induction xs with
    | nil =>
      intro ys ends
      cases ys with
      | nil => exact ⟨rfl, (List.cons.inj ends).2⟩
      | cons d ys =>
        rw [List.flatMap_cons, List.append_assoc] at ends
        exact absurd ends.symm (escapeChar_ne_quote d _ _)
    | cons c xs ih =>
      intro ys ends
      cases ys with
      | nil =>
        rw [List.flatMap_cons, List.append_assoc] at ends
        exact absurd ends (escapeChar_ne_quote c _ _)
      | cons d ys =>
        rw [List.flatMap_cons, List.flatMap_cons, List.append_assoc, List.append_assoc] at ends
        obtain ⟨rfl, rest⟩ := escapeChar_split ends
        obtain ⟨rfl, tails⟩ := ih ys rest
        exact ⟨rfl, tails⟩
  simp only [quoted, List.cons_append, List.append_assoc, List.nil_append, List.cons.injEq,
    true_and] at same
  obtain ⟨chars, tails⟩ := escaped _ _ same
  exact ⟨String.toList_inj.mp chars, tails⟩

/-- Nothing that could continue a number. -/
def Ends (rest : List Char) : Prop := ∀ c ∈ rest.head?, numberChar c = false

theorem ends_cons {c : Char} {rest : List Char} (other : numberChar c = false) : Ends (c :: rest) := by
  intro d first
  obtain rfl := Option.some.inj first
  exact other

theorem number_split {a b s t : List Char} (digits : ∀ c ∈ a, numberChar c = true)
    (others : ∀ c ∈ b, numberChar c = true) (ends : Ends s) (ends' : Ends t)
    (same : a ++ s = b ++ t) : a = b ∧ s = t := by
  induction a generalizing b with
  | nil =>
    cases b with
    | nil => exact ⟨rfl, same⟩
    | cons d b =>
      rw [List.nil_append] at same
      have stop := ends d (by simp [same])
      rw [others d List.mem_cons_self] at stop
      cases stop
  | cons c a ih =>
    cases b with
    | nil =>
      rw [List.nil_append] at same
      have stop := ends' c (by simp [← same])
      rw [digits c List.mem_cons_self] at stop
      cases stop
    | cons d b =>
      obtain ⟨rfl, rest⟩ := List.cons.inj same
      obtain ⟨rfl, tails⟩ := ih (fun c inside => digits c (List.mem_cons_of_mem _ inside))
        (fun c inside => others c (List.mem_cons_of_mem _ inside)) rest
      exact ⟨rfl, tails⟩

/-- What the first character tells of a value; all numbers look alike. -/
def leadOf (c : Char) : Char := if numberChar c then '0' else c

def Json.lead : Json → Char
  | .null => 'n'
  | .bool true => 't'
  | .bool false => 'f'
  | .num _ => '0'
  | .neg _ => '0'
  | .float _ => '0'
  | .str _ => '"'
  | .arr _ => '['
  | .obj _ => '{'

theorem numberChar_digits {n : Nat} : ∀ c ∈ Nat.toDigits 10 n, numberChar c = true := by
  intro c member
  have digit := Nat.isDigit_of_mem_toDigits (by decide) (by decide) member
  simp [numberChar, digit]

theorem toDigits_ne_nil (n : Nat) : Nat.toDigits 10 n ≠ [] := by
  intro none
  have size := Nat.length_toDigits_pos (b := 10) (n := n)
  rw [none] at size
  exact absurd size (by decide)

/-- Whether the value is a number, and then only number characters are written. -/
def Json.isNumber : Json → Bool
  | .num _ => true
  | .neg _ => true
  | .float _ => true
  | _ => false

theorem isNumber_iff_lead {value : Json} : value.isNumber = true ↔ value.lead = '0' := by
  match value with
  | .num _ | .neg _ | .float _ => exact iff_of_true rfl rfl
  | .bool true | .bool false | .null | .str _ | .arr _ | .obj _ =>
    exact iff_of_false Bool.false_ne_true (by simp [Json.lead])

theorem numberChar_render {value : Json} (number : value.isNumber = true) :
    ∀ c ∈ value.render, numberChar c = true := by
  match value with
  | .num n => exact numberChar_digits
  | .neg n =>
    rw [Json.render, List.forall_mem_cons]
    exact ⟨by decide, numberChar_digits⟩
  | .float number => exact List.all_eq_true.mp number.shape.1

theorem render_lead (value : Json) :
    ∃ c rest, value.render = c :: rest ∧ leadOf c = value.lead := by
  by_cases number : value.isNumber = true
  · have chars := numberChar_render number
    have lead := isNumber_iff_lead.mp number
    have some : value.render ≠ [] := by
      match value with
      | .num n => exact toDigits_ne_nil n
      | .neg n => exact List.cons_ne_nil _ _
      | .float number =>
        intro none
        exact number.shape.2 (by rw [show number.text = [] from none]; rfl)
    obtain ⟨c, rest, text⟩ := List.exists_cons_of_ne_nil some
    have first := chars c (by simp [text])
    exact ⟨c, rest, text, by rw [lead, leadOf, if_pos first]⟩
  · match value with
    | .null => exact ⟨_, _, rfl, by decide⟩
    | .bool true => exact ⟨_, _, rfl, by decide⟩
    | .bool false => exact ⟨_, _, rfl, by decide⟩
    | .str _ => exact ⟨'"', _, rfl, rfl⟩
    | .arr _ => exact ⟨'[', _, rfl, rfl⟩
    | .obj _ => exact ⟨'{', _, rfl, rfl⟩
    | .num _ | .neg _ | .float _ => exact absurd rfl number

theorem integer_chars {value : Json} (number : value.isNumber = true)
    (whole : ∀ text, value ≠ .float text) :
    value.render.all (fun c => c.isDigit || c = '-') = true := by
  have digits : ∀ n, (Nat.toDigits 10 n).all (fun c => c.isDigit || c = '-') = true := by
    intro n
    rw [List.all_eq_true]
    intro c member
    simp [Nat.isDigit_of_mem_toDigits (by decide) (by decide) member]
  match value with
  | .num n => exact digits n
  | .neg n => exact (List.all_cons ..).trans (by rw [digits]; rfl)
  | .float text => exact absurd rfl (whole text)

theorem toDigits_injective : Function.Injective (Nat.toDigits 10) := by
  intro m n same
  have value : ∀ k, Nat.ofDigitChars 10 (Nat.toDigits 10 k) 0 = k := by simp
  rw [← value m, ← value n, same]

theorem minus_not_digit (m n : Nat) : Nat.toDigits 10 m ≠ '-' :: Nat.toDigits 10 n := by
  intro same
  have member : '-' ∈ Nat.toDigits 10 m := by simp [same]
  exact absurd (Nat.isDigit_of_mem_toDigits (by decide) (by decide) member) (by decide)

theorem number_render_injective {v w : Json} (number : v.isNumber = true)
    (number' : w.isNumber = true) (same : v.render = w.render) : v = w := by
  have mixed : ∀ {x : Json} {text : FloatText}, x.isNumber = true →
      (∀ other, x ≠ .float other) → text.text ≠ x.render := by
    intro x text known whole equal
    exact text.shape.2 (equal ▸ integer_chars known whole)
  match v, w with
  | .num m, .num n => rw [toDigits_injective same]
  | .num m, .neg n => exact absurd same (minus_not_digit m (n + 1))
  | .neg m, .num n => exact absurd same.symm (minus_not_digit n (m + 1))
  | .neg m, .neg n =>
    have less := toDigits_injective (List.cons.inj same).2
    rw [Nat.succ.inj less]
  | .float a, .float b =>
    obtain ⟨a, _⟩ := a
    obtain ⟨b, _⟩ := b
    obtain rfl : a = b := same
    rfl
  | .float a, .num n => exact absurd same (mixed rfl (by simp))
  | .float a, .neg n => exact absurd same (mixed rfl (by simp))
  | .num n, .float b => exact absurd same.symm (mixed rfl (by simp))
  | .neg n, .float b => exact absurd same.symm (mixed rfl (by simp))

/-- A list whose items can each be told from what follows, up to its closing mark. -/
theorem separated_split {α : Type} {f : α → List Char} {close : Char} (mark : close ≠ ',')
    (stops : numberChar close = false)
    (opens : ∀ x, ∃ c rest, f x = c :: rest ∧ c ≠ close) :
    ∀ (xs ys : List α) {s t : List Char},
      (∀ x ∈ xs, ∀ y s t, Ends s → Ends t → f x ++ s = f y ++ t → x = y ∧ s = t) →
      separated (xs.map f) ++ close :: s = separated (ys.map f) ++ close :: t →
      xs = ys ∧ s = t := by
  have tails : ∀ (x : α) (rest : List α) (s : List Char), ∃ more,
      separated ((x :: rest).map f) ++ close :: s = f x ++ more ∧ Ends more ∧
      (rest = [] → more = close :: s) ∧
      (rest ≠ [] → more = ',' :: (separated (rest.map f) ++ close :: s)) := by
    intro x rest s
    cases rest with
    | nil => exact ⟨close :: s, rfl, ends_cons stops, fun _ => rfl, fun some => absurd rfl some⟩
    | cons next rest =>
      refine ⟨',' :: (separated ((next :: rest).map f) ++ close :: s), ?_, ends_cons (by decide),
        fun none => absurd none (List.cons_ne_nil _ _), fun _ => rfl⟩
      simp [separated]
  have empty : ∀ (y : α) (rest : List α) (s t : List Char),
      close :: s ≠ separated ((y :: rest).map f) ++ close :: t := by
    intro y rest s t same
    obtain ⟨more, text, -⟩ := tails y rest t
    obtain ⟨c, after, first, other⟩ := opens y
    rw [text, first] at same
    exact other (List.cons.inj same).1.symm
  intro xs
  induction xs with
  | nil =>
    intro ys s t _ same
    cases ys with
    | nil => exact ⟨rfl, (List.cons.inj same).2⟩
    | cons y ys => exact absurd same (empty y ys s t)
  | cons x xs ih =>
    intro ys s t each same
    cases ys with
    | nil => exact absurd same.symm (empty x xs t s)
    | cons y ys =>
      obtain ⟨more, text, ends, last, further⟩ := tails x xs s
      obtain ⟨more', text', ends', last', further'⟩ := tails y ys t
      rw [text, text'] at same
      obtain ⟨rfl, rfl⟩ := each x List.mem_cons_self y more more' ends ends' same
      by_cases none : xs = [] <;> by_cases none' : ys = []
      · subst none none'
        have closing := (last rfl).symm.trans (last' rfl)
        exact ⟨rfl, (List.cons.inj closing).2⟩
      · have clash := (last none).symm.trans (further' none')
        exact absurd (List.cons.inj clash).1 mark
      · have clash := (last' none').symm.trans (further none)
        exact absurd (List.cons.inj clash).1 mark
      · have onward := (further none).symm.trans (further' none')
        obtain ⟨rfl, rests⟩ := ih ys (fun x member => each x (List.mem_cons_of_mem _ member))
          (List.cons.inj onward).2
        exact ⟨rfl, rests⟩

theorem item_opens (item : Json) : ∃ c rest, item.render = c :: rest ∧ c ≠ ']' := by
  obtain ⟨c, rest, text, lead⟩ := render_lead item
  refine ⟨c, rest, text, ?_⟩
  rintro rfl
  match item with
  | .bool true | .bool false | .null | .num _ | .neg _ | .float _ | .str _ | .arr _ | .obj _ =>
    exact absurd lead (by simp [Json.lead, leadOf, numberChar])

theorem field_opens (field : String × Json) :
    ∃ c rest, Json.renderField field = c :: rest ∧ c ≠ '}' := by
  obtain ⟨key, value⟩ := field
  exact ⟨'"', _, rfl, by decide⟩

theorem field_split {field : String × Json}
    (value : ∀ w s t, Ends s → Ends t → field.2.render ++ s = w.render ++ t → field.2 = w ∧ s = t)
    (other : String × Json) (s t : List Char) (ends : Ends s) (ends' : Ends t)
    (same : Json.renderField field ++ s = Json.renderField other ++ t) : field = other ∧ s = t := by
  obtain ⟨key, _⟩ := field
  obtain ⟨key', w⟩ := other
  simp only [Json.renderField, List.append_assoc, List.cons_append] at same
  obtain ⟨rfl, rest⟩ := quoted_split same
  obtain ⟨rfl, tails⟩ := value w s t ends ends' (List.cons.inj rest).2
  exact ⟨rfl, tails⟩

theorem fields_split {xs ys : List (String × Json)} {s t : List Char}
    (values : ∀ field ∈ xs, ∀ w s t, Ends s → Ends t →
      field.2.render ++ s = w.render ++ t → field.2 = w ∧ s = t)
    (same : (Json.obj xs).render ++ s = (Json.obj ys).render ++ t) : xs = ys ∧ s = t := by
  simp only [Json.render, renderFields_eq, List.cons_append, List.append_assoc, List.nil_append,
    List.cons.injEq, true_and] at same
  exact separated_split (by decide) (by decide) field_opens xs ys
    (fun field member => field_split (values field member)) same

/-- A value is read back from the front of a text, whatever follows it. -/
theorem Json.render_split (v : Json) : ∀ (w : Json) (s t : List Char), Ends s → Ends t →
    v.render ++ s = w.render ++ t → v = w ∧ s = t := by
  induction v using Json.induct with
  | step v ih =>
    intro w s t ends ends' same
    have leads : v.lead = w.lead := by
      obtain ⟨c, rest, text, lead⟩ := render_lead v
      obtain ⟨d, rest', text', lead'⟩ := render_lead w
      rw [text, text'] at same
      rw [← lead, ← lead', (List.cons.inj same).1]
    by_cases number : v.isNumber = true
    · have number' := isNumber_iff_lead.mpr (leads.symm.trans (isNumber_iff_lead.mp number))
      obtain ⟨texts, rests⟩ := number_split (numberChar_render number) (numberChar_render number')
        ends ends' same
      exact ⟨number_render_injective number number' texts, rests⟩
    match v, w with
    | .null, .null => exact ⟨rfl, List.append_cancel_left same⟩
    | .bool true, .bool true => exact ⟨rfl, List.append_cancel_left same⟩
    | .bool false, .bool false => exact ⟨rfl, List.append_cancel_left same⟩
    | .str x, .str y =>
      obtain ⟨rfl, rests⟩ := quoted_split same
      exact ⟨rfl, rests⟩
    | .arr xs, .arr ys =>
      have items : ∀ zs : List Json, Json.renderItems zs = zs.map Json.render := by
        intro zs
        simpa using renderItems_map id zs
      simp only [Json.render, items, List.cons_append, List.append_assoc, List.nil_append,
        List.cons.injEq, true_and] at same
      obtain ⟨rfl, rests⟩ := separated_split (by decide) (by decide) item_opens xs ys ih same
      exact ⟨rfl, rests⟩
    | .obj xs, .obj ys =>
      obtain ⟨rfl, rests⟩ := fields_split
        (fun field member => ih field.2 (List.mem_map_of_mem member)) same
      exact ⟨rfl, rests⟩

/-- An object ends with its own brace. -/
theorem object_split {xs ys : List (String × Json)} {s t : List Char}
    (same : (Json.obj xs).render ++ s = (Json.obj ys).render ++ t) : xs = ys ∧ s = t :=
  fields_split (fun field _ => Json.render_split field.2) same

end Reading

end Crewd
