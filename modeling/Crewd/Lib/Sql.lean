import Mathlib.Algebra.Group.Nat.Defs
import Mathlib.Data.List.Sort

/-! Rows of SQL tables, and a driver that binds parameters and reads columns by their
position. An `INSERT` puts each value under its column's name, and what a query answers
is read by position. The rules carry queries over rows to queries over the values that
the rows were made from. -/
namespace Sql

inductive Value where
  | null
  | integer (value : Int)
  | text (value : String)
deriving DecidableEq, Repr

inductive DataType where
  | integer
  | text
deriving DecidableEq, Repr

inductive Error where
  | prepare (message : String)
  | constraint (message : String)
  | datatype (column : String)
  | outOfRange
  | invalidColumnIndex (index : Nat)
  | invalidColumnType (index : Nat) (name type : String)
  | queryReturnedNoRows
deriving DecidableEq, Repr

def Error.display : Error → String
  | prepare message | constraint message => message
  | datatype column => s!"cannot store value in column {column}"
  | outOfRange => "out of range integral type conversion attempted"
  | invalidColumnIndex index => s!"Invalid column index: {index}"
  | invalidColumnType index name type =>
    s!"Invalid column type {type} at index: {index}, name: {name}"
  | queryReturnedNoRows => "Query returned no rows"

def Value.typeName : Value → String
  | null => "Null"
  | integer _ => "Integer"
  | text _ => "Text"

/-- `=`; nothing equals null. -/
def Value.eq : Value → Value → Bool
  | integer a, integer b => a = b
  | text a, text b => a = b
  | _, _ => false

/-- `<=`; null compares with nothing, and numbers come before texts. -/
def Value.atMost : Value → Value → Bool
  | integer a, integer b => a ≤ b
  | integer _, text _ => true
  | text a, text b => a ≤ b
  | _, _ => false

/-- The order of `ORDER BY`, where null comes first. -/
def Value.before (a b : Value) : Bool := a = null || a.atMost b

/-- A row of a table, each value under its column. -/
abbrev Row := List (String × Value)

/-- What a query draws from, each column under its table and name. -/
abbrev Source := List ((String × String) × Value)

/-- The columns of an answer in their order. -/
abbrev Fields := List (String × Value)

section Writing

structure Column where
  name : String
  type : DataType
  notNull : Bool

structure Schema where
  table : String
  columns : List Column

/-- What a parameter binds, unless it does not fit. -/
class ToSql (α : Type) where
  toSql : α → Except Error Value

instance : ToSql String := ⟨fun text => .ok (.text text)⟩

instance : ToSql Int := ⟨fun value => .ok (.integer value)⟩

/-- An unsigned number has no place above the largest `i64`. -/
instance : ToSql Nat := ⟨fun n => if n < 2 ^ 63 then .ok (.integer n) else .error .outOfRange⟩

instance {α : Type} [ToSql α] : ToSql (Option α) := ⟨fun value => match value with
  | none => .ok .null
  | some value => ToSql.toSql value⟩

def Column.admits (column : Column) : Value → Bool
  | .null => !column.notNull
  | .integer _ => column.type = .integer
  | .text _ => column.type = .text

/-- A value as the column keeps it. One of another type would be converted where that is
possible; it is refused here, so that no result rests on a conversion. -/
def Column.store (table : String) (column : Column) (value : Value) : Except Error Value :=
  if column.admits value then .ok value
  else if value = .null then
    .error (.constraint s!"NOT NULL constraint failed: {table}.{column.name}")
  else .error (.datatype column.name)

/-- What is written to the column of that name. -/
def written (names : List String) (values : List Value) (column : String) : Value :=
  ((names.zip values).lookup column).getD .null

/-- The row that an `INSERT` makes. -/
def Schema.row (schema : Schema) (names : List String) (params : List (Except Error Value)) :
    Except Error Row :=
  if names.length ≠ params.length then
    .error (.prepare s!"{params.length} values for {names.length} columns")
  else match names.find? fun name => !schema.columns.any (·.name = name) with
    | some name => .error (.prepare s!"table {schema.table} has no column named {name}")
    | none => do
      let values ← params.mapM id
      schema.columns.mapM fun column => do
        let value ← column.store schema.table (written names values column.name)
        pure (column.name, value)

def Row.column (row : Row) (name : String) : Value := (row.lookup name).getD .null

/-- `INSERT INTO` a table with a primary key of one column. -/
def Schema.insert (schema : Schema) (key : String) (names : List String)
    (params : List (Except Error Value)) (rows : List Row) : Except Error (List Row) := do
  let row ← schema.row names params
  if rows.any fun old => (old.column key).eq (row.column key) then
    throw (.constraint s!"UNIQUE constraint failed: {schema.table}.{key}")
  else pure (rows ++ [row])

/-- `INSERT OR REPLACE INTO`. -/
def Schema.insertOrReplace (schema : Schema) (key : String) (names : List String)
    (params : List (Except Error Value)) (rows : List Row) : Except Error (List Row) := do
  let row ← schema.row names params
  pure (rows.filter (fun old => !(old.column key).eq (row.column key)) ++ [row])

end Writing

section Reading

class FromSql (α : Type) where
  fromSql : Value → Option α

instance : FromSql String := ⟨fun value => match value with
  | .text text => some text
  | _ => none⟩

instance : FromSql Int := ⟨fun value => match value with
  | .integer value => some value
  | _ => none⟩

instance {α : Type} [FromSql α] : FromSql (Option α) := ⟨fun value => match value with
  | .null => some none
  | value => (FromSql.fromSql value).map some⟩

/-- `Row::get`. -/
def Fields.get {α : Type} [FromSql α] (fields : Fields) (index : Nat) : Except Error α :=
  match fields[index]? with
  | none => .error (.invalidColumnIndex index)
  | some (name, value) =>
    match FromSql.fromSql value with
    | some read => .ok read
    | none => .error (.invalidColumnType index name value.typeName)

def Row.under (table : String) (row : Row) : Source :=
  row.map fun (name, value) => ((table, name), value)

def Source.column (source : Source) (table name : String) : Value :=
  (source.lookup (table, name)).getD .null

/-- The columns that a `SELECT` lists. -/
def Source.select (columns : List (String × String)) (source : Source) : Except Error Fields :=
  columns.mapM fun (table, name) =>
    match source.lookup (table, name) with
    | some value => .ok (name, value)
    | none => .error (.prepare s!"no such column: {name}")

/-- `JOIN … ON` a column of each table. -/
def join (left right : List Row) (table table' name name' : String) : List Source :=
  left.flatMap fun l => (right.filter fun r => (r.column name').eq (l.column name)).map fun r =>
    l.under table ++ r.under table'

def orderBy (table name : String) (sources : List Source) : List Source :=
  sources.insertionSort fun a b => (a.column table name).before (b.column table name)

/-- `LIMIT`; a negative one is no limit. -/
def limited {α : Type} (limit : Int) (rows : List α) : List α :=
  if limit < 0 then rows else rows.take limit.toNat

/-- `query_row`. -/
def queryRow {α : Type} (sources : List Source) (columns : List (String × String))
    (read : Fields → Except Error α) : Except Error α :=
  match sources with
  | [] => .error .queryReturnedNoRows
  | source :: _ => source.select columns >>= read

/-- `query_map`, collected. -/
def queryMap {α : Type} (sources : List Source) (columns : List (String × String))
    (read : Fields → Except Error α) : Except Error (List α) :=
  sources.mapM fun source => source.select columns >>= read

end Reading

section Optional
variable {α : Type}

/-- A value that may be absent. -/
def optional (wrap : α → Value) : Option α → Value
  | none => .null
  | some value => wrap value

@[simp] theorem toSql_text (text : String) : ToSql.toSql text = .ok (.text text) := rfl

@[simp] theorem toSql_integer (n : Int) : ToSql.toSql n = .ok (.integer n) := rfl

theorem toSql_unsigned {n : Nat} (fits : n < 2 ^ 63) : ToSql.toSql n = .ok (.integer n) :=
  if_pos fits

@[simp] theorem toSql_option_text (text : Option String) :
    ToSql.toSql text = .ok (optional .text text) := by
  cases text <;> rfl

@[simp] theorem toSql_option_integer (n : Option Int) :
    ToSql.toSql n = .ok (optional .integer n) := by
  cases n <;> rfl

@[simp] theorem fromSql_text (text : String) : FromSql.fromSql (.text text) = some text := rfl

@[simp] theorem fromSql_integer (n : Int) : FromSql.fromSql (.integer n) = some n := rfl

@[simp] theorem fromSql_option_text (text : Option String) :
    FromSql.fromSql (optional .text text) = some text := by
  cases text <;> rfl

@[simp] theorem fromSql_option_integer (n : Option Int) :
    FromSql.fromSql (optional .integer n) = some n := by
  cases n <;> rfl

@[simp] theorem admits_text (column : Column) (text : String) :
    column.admits (.text text) = decide (column.type = .text) := rfl

@[simp] theorem admits_integer (column : Column) (n : Int) :
    column.admits (.integer n) = decide (column.type = .integer) := rfl

/-- A column that may be null keeps what may be absent. -/
theorem admits_optional {column : Column} {wrap : α → Value} (nullable : column.notNull = false)
    (each : ∀ value, column.admits (wrap value) = true) (value : Option α) :
    column.admits (optional wrap value) = true := by
  cases value with
  | none => simp [optional, Column.admits, nullable]
  | some value => exact each value

end Optional

section Rules
variable {α β : Type} {schema : Schema} {key : String} {names : List String}
  {params : List (Except Error Value)} {encode : α → Row} {keyOf : α → String} {items : List α}
  {item : α}

/-- The row of a value keeps one of its texts under the column. -/
def Keeps (encode : α → Row) (name : String) (text : α → String) : Prop :=
  ∀ item, (encode item).column name = .text (text item)

theorem mapM_ok {ε : Type} {f : α → Except ε β} {g : α → β}
    (each : ∀ item ∈ items, f item = .ok (g item)) : items.mapM f = .ok (items.map g) := by
  induction items with
  | nil => rfl
  | cons item rest ih =>
    rw [List.mapM_cons, each item List.mem_cons_self,
      ih fun later member => each later (List.mem_cons_of_mem _ member)]
    rfl

/-- A row whose values its columns admit holds what was written to each of them. -/
theorem row_eq {row : Row} (values : List Value) (bound : params = values.map .ok)
    (width : names.length = values.length)
    (known : names.find? (fun name => !schema.columns.any (·.name = name)) = none)
    (same : schema.columns.map (fun column => (column.name, written names values column.name)) = row)
    (admits : ∀ pair ∈ schema.columns.zip row, pair.1.admits pair.2.2 = true) :
    schema.row names params = .ok row := by
  subst bound same
  have all : (values.map (Except.ok : Value → Except Error Value)).mapM id = .ok values := by
    have each : ∀ value ∈ values, (id ∘ Except.ok) value = (.ok (id value) : Except Error Value) :=
      fun _ _ => rfl
    rw [List.mapM_map, mapM_ok each, List.map_id]
  rw [Schema.row, List.length_map, if_neg (by simp [width]), known]
  dsimp only
  rw [all]
  apply mapM_ok
  intro column member
  have kept := admits (column, column.name, written names values column.name)
    (by rw [← List.map_prod_left_eq_zip]; exact List.mem_map_of_mem member)
  simp only [Column.store, kept]
  rfl

theorem insert_map (keeps : Keeps encode key keyOf)
    (made : schema.row names params = .ok (encode item))
    (new : ∀ old ∈ items, keyOf old ≠ keyOf item) :
    schema.insert key names params (items.map encode) = .ok ((items ++ [item]).map encode) := by
  have free : ((items.map encode).any fun old =>
      (old.column key).eq ((encode item).column key)) = false := by
    rw [List.any_map, List.any_eq_false]
    intro old member
    simp [keeps _, Value.eq, new old member]
  rw [Schema.insert, made]
  simp only [bind, Except.bind]
  rw [free, List.map_append]
  rfl

theorem insertOrReplace_map (keeps : Keeps encode key keyOf)
    (made : schema.row names params = .ok (encode item)) :
    schema.insertOrReplace key names params (items.map encode) =
      .ok ((items.filter (fun old => !decide (keyOf old = keyOf item)) ++ [item]).map encode) := by
  have kept : (items.map encode).filter (fun old =>
      !(old.column key).eq ((encode item).column key)) =
        (items.filter fun old => !decide (keyOf old = keyOf item)).map encode := by
    rw [List.filter_map]
    simp [Function.comp_def, keeps _, Value.eq]
  rw [Schema.insertOrReplace, made]
  simp only [bind, Except.bind]
  rw [kept, List.map_append]
  rfl

/-- `WHERE` a column of texts has a value. -/
theorem filter_column {name : String} (keeps : Keeps encode name keyOf) (value : String) :
    (items.map encode).filter (fun row => (row.column name).eq (.text value)) =
      (items.filter (keyOf · = value)).map encode := by
  rw [List.filter_map]
  simp [Function.comp_def, keeps _, Value.eq]

theorem filter_eq_find? (once : (items.map keyOf).Nodup) (value : String) :
    items.filter (keyOf · = value) = (items.find? (keyOf · = value)).toList := by
  induction items with
  | nil => rfl
  | cons item rest ih =>
    rw [List.map_cons, List.nodup_cons] at once
    by_cases here : keyOf item = value
    · have none : rest.filter (keyOf · = value) = [] := by
        rw [List.filter_eq_nil_iff]
        intro later member same
        apply once.1
        rw [here, ← of_decide_eq_true same]
        exact List.mem_map_of_mem member
      simp [here, none]
    · simpa [here] using ih once.2

/-- A join on a key finds at most one row for each row of the left table. -/
theorem join_map {encode' : β → Row} {keyOf' : β → String} {items' : List β}
    {table table' name name' : String} (keeps : Keeps encode name keyOf)
    (keeps' : Keeps encode' name' keyOf') (once : (items'.map keyOf').Nodup) :
    join (items.map encode) (items'.map encode') table table' name name' =
      (items.filterMap fun item => (items'.find? (keyOf' · = keyOf item)).map fun item' =>
        (item, item')).map fun (item, item') =>
          (encode item).under table ++ (encode' item').under table' := by
  induction items with
  | nil => rfl
  | cons item rest ih =>
    have found := filter_eq_find? once (keyOf item)
    rw [join] at ih
    rw [join, List.map_cons, List.flatMap_cons, ih, keeps item, filter_column keeps', found]
    cases first : items'.find? (keyOf' · = keyOf item) <;> simp [first]

theorem orderBy_map {source : α → Source} {table name : String} {r : α → α → Bool}
    (order : ∀ a b, ((source a).column table name).before ((source b).column table name) = r a b) :
    orderBy table name (items.map source) = (items.insertionSort (r · ·)).map source := by
  rw [orderBy]
  refine (List.map_insertionSort _ _ _ _ fun a _ b _ => ?_).symm
  rw [order]

theorem limited_map {f : α → β} (limit : Int) :
    limited limit (items.map f) = (limited limit items).map f := by
  unfold limited
  split <;> simp

theorem mem_of_limited {limit : Int} (member : item ∈ limited limit items) : item ∈ items := by
  unfold limited at member
  split at member
  · exact member
  · exact List.mem_of_mem_take member

theorem queryMap_map {source : α → Source} {columns : List (String × String)}
    {read : Fields → Except Error β} {g : α → β}
    (each : ∀ item ∈ items, (source item).select columns >>= read = .ok (g item)) :
    queryMap (items.map source) columns read = .ok (items.map g) := by
  rw [queryMap, List.mapM_map]
  exact mapM_ok each

/-- What is found is the first row where a column of texts has the value. -/
theorem filter_found {name value : String} (keeps : Keeps encode name keyOf)
    (found : items.find? (keyOf · = value) = some item) :
    ∃ rest, (items.map encode).filter (fun row => (row.column name).eq (.text value)) =
      encode item :: rest := by
  rw [← List.head?_filter] at found
  obtain ⟨rest, first⟩ := List.head?_eq_some_iff.mp found
  exact ⟨rest.map encode, by rw [filter_column keeps, first, List.map_cons]⟩

end Rules
end Sql
