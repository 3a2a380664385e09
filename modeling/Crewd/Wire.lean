import Crewd.Types
import Mathlib.Algebra.BigOperators.Group.List.Basic

/-! Frames on the socket: a response is one line of JSON, written as `serde_json`
writes it, and the client reads the line in chunks up to a bound of its own. -/
namespace Crewd

section Text

/-- The UTF-8 bytes of a text. -/
def utf8 (text : List Char) : List UInt8 := text.flatMap String.utf8EncodeChar

def utf8Size (text : List Char) : Nat := (text.map Char.utf8Size).sum

theorem length_utf8 (text : List Char) : (utf8 text).length = utf8Size text := by
  simp [utf8, utf8Size, List.length_flatMap]

@[simp] theorem utf8Size_nil : utf8Size [] = 0 := rfl

@[simp] theorem utf8Size_cons (c : Char) (text : List Char) :
    utf8Size (c :: text) = c.utf8Size + utf8Size text := by simp [utf8Size]

@[simp] theorem utf8Size_append (first second : List Char) :
    utf8Size (first ++ second) = utf8Size first + utf8Size second := by simp [utf8Size]

def newline : UInt8 := 10

/-- The byte of a line feed is part of no other character. -/
theorem newline_mem_utf8EncodeChar (member : newline ∈ String.utf8EncodeChar c) : c = '\n' := by
  have bytes : ∀ v : Nat, newline = UInt8.ofNat v → v % 256 = 10 := fun v same => by
    have value := congrArg UInt8.toNat same
    simpa [newline, eq_comm] using value
  unfold String.utf8EncodeChar at member
  simp only at member
  split at member
  · have value := bytes _ (List.mem_singleton.mp member)
    apply Char.ext
    apply UInt32.toNat_inj.mp
    change c.val.toNat = 10
    omega
  split at member
  · simp only [List.mem_cons, List.not_mem_nil, or_false] at member
    rcases member with same | same <;> have value := bytes _ same <;> omega
  split at member
  · simp only [List.mem_cons, List.not_mem_nil, or_false] at member
    rcases member with same | same | same <;> have value := bytes _ same <;> omega
  · simp only [List.mem_cons, List.not_mem_nil, or_false] at member
    rcases member with same | same | same | same <;> have value := bytes _ same <;> omega

theorem newline_not_mem (free : '\n' ∉ text) : newline ∉ utf8 text := by
  intro member
  obtain ⟨c, inside, byte⟩ := List.mem_flatMap.mp member
  exact free (newline_mem_utf8EncodeChar byte ▸ inside)

end Text

section Values

/-- Digits of a hexadecimal escape. -/
def hexDigit (n : Nat) : Char := (Nat.toDigits 16 n).headD '0'

/-- `format_escaped_str_contents`. -/
def escapeChar (c : Char) : List Char :=
  if c = '"' then ['\\', '"']
  else if c = '\\' then ['\\', '\\']
  else match c.toNat with
    | 8 => ['\\', 'b']
    | 9 => ['\\', 't']
    | 10 => ['\\', 'n']
    | 12 => ['\\', 'f']
    | 13 => ['\\', 'r']
    | n => if n < 32 then ['\\', 'u', '0', '0', hexDigit (n / 16), hexDigit (n % 16)] else [c]

def quoted (text : String) : List Char := '"' :: text.toList.flatMap escapeChar ++ ['"']

def separated : List (List Char) → List Char
  | [] => []
  | [text] => text
  | text :: rest => text ++ ',' :: separated rest

mutual

/-- `serde_json::to_vec`, in characters. -/
def Json.render : Json → List Char
  | .null => ['n', 'u', 'l', 'l']
  | .bool true => ['t', 'r', 'u', 'e']
  | .bool false => ['f', 'a', 'l', 's', 'e']
  | .num n => Nat.toDigits 10 n
  | .neg n => '-' :: Nat.toDigits 10 (n + 1)
  | .float number => number.text
  | .str text => quoted text
  | .arr items => '[' :: separated (renderItems items) ++ [']']
  | .obj fields => '{' :: separated (renderFields fields) ++ ['}']

def Json.renderItems : List Json → List (List Char)
  | [] => []
  | item :: rest => item.render :: Json.renderItems rest

def Json.renderField : String × Json → List Char
  | (key, value) => quoted key ++ ':' :: value.render

def Json.renderFields : List (String × Json) → List (List Char)
  | [] => []
  | field :: rest => Json.renderField field :: Json.renderFields rest

end

/-- The bytes of a character inside a JSON text. -/
def escapedSize (c : Char) : Nat :=
  if c = '"' ∨ c = '\\' then 2
  else if c.toNat ∈ [8, 9, 10, 12, 13] then 2
  else if c.toNat < 32 then 6
  else c.utf8Size

/-- The bytes of a text with its quotes. -/
def textSize (text : String) : Nat := 2 + (text.toList.map escapedSize).sum

theorem hexDigit_small : ∀ n < 16, hexDigit n ≠ '\n' ∧ (hexDigit n).utf8Size = 1 := by
  decide

/-- How a character is escaped: with a backslash, as a number, or not at all. -/
theorem escapeChar_cases (c : Char) :
    (∃ e, escapeChar c = ['\\', e] ∧ e ≠ '\n' ∧ e.utf8Size = 1 ∧ escapedSize c = 2) ∨
    (∃ n < 32, escapeChar c = ['\\', 'u', '0', '0', hexDigit (n / 16), hexDigit (n % 16)] ∧
      escapedSize c = 6) ∨
    escapeChar c = [c] ∧ c ≠ '\n' ∧ escapedSize c = c.utf8Size := by
  unfold escapeChar escapedSize
  by_cases quote : c = '"'
  · exact .inl ⟨'"', by simp [quote], by decide, by decide, by simp [quote]⟩
  by_cases slash : c = '\\'
  · exact .inl ⟨'\\', by simp [slash], by decide, by decide, by simp [slash]⟩
  simp only [quote, slash, if_false, or_false, List.mem_cons, List.not_mem_nil]
  split
  case h_1 n same => exact .inl ⟨'b', rfl, by decide, by decide, by simp [same]⟩
  case h_2 n same => exact .inl ⟨'t', rfl, by decide, by decide, by simp [same]⟩
  case h_3 n same => exact .inl ⟨'n', rfl, by decide, by decide, by simp [same]⟩
  case h_4 n same => exact .inl ⟨'f', rfl, by decide, by decide, by simp [same]⟩
  case h_5 n same => exact .inl ⟨'r', rfl, by decide, by decide, by simp [same]⟩
  case h_6 n h8 h9 h10 h12 h13 =>
    have other : ¬ (c.toNat = 8 ∨ c.toNat = 9 ∨ c.toNat = 10 ∨ c.toNat = 12 ∨ c.toNat = 13) := by
      rintro (same | same | same | same | same)
      · exact h8 same
      · exact h9 same
      · exact h10 same
      · exact h12 same
      · exact h13 same
    simp only [if_neg other]
    by_cases control : c.toNat < 32
    · exact .inr (.inl ⟨c.toNat, control, by simp [control], by simp [control]⟩)
    · refine .inr (.inr ⟨by simp [control], ?_, by simp [control]⟩)
      rintro rfl
      exact control (by decide)

theorem utf8Size_escapeChar (c : Char) : utf8Size (escapeChar c) = escapedSize c := by
  rcases escapeChar_cases c with ⟨e, text, _, one, size⟩ | ⟨n, small, text, size⟩ | ⟨text, _, size⟩
  · rw [text, size]
    simp only [utf8Size_cons, utf8Size_nil, one]
    rfl
  · rw [text, size]
    have high := (hexDigit_small (n / 16) (by omega)).2
    have low := (hexDigit_small (n % 16) (by omega)).2
    simp only [utf8Size_cons, utf8Size_nil, high, low]
    rfl
  · rw [text, size]
    simp

theorem newline_not_escaped (c : Char) : '\n' ∉ escapeChar c := by
  rcases escapeChar_cases c with ⟨e, text, other, _⟩ | ⟨n, small, text, _⟩ | ⟨text, other, _⟩
  · rw [text]
    simp [other.symm]
  · rw [text]
    have high := (hexDigit_small (n / 16) (by omega)).1
    have low := (hexDigit_small (n % 16) (by omega)).1
    simp [high.symm, low.symm]
  · rw [text]
    simp [other.symm]

theorem utf8Size_quoted (text : String) : utf8Size (quoted text) = textSize text := by
  have inner : ∀ chars : List Char,
      utf8Size (chars.flatMap escapeChar) = (chars.map escapedSize).sum := by
    intro chars
    induction chars with
    | nil => rfl
    | cons c rest ih => simp [utf8Size_escapeChar, ih]
  have mark : ('"' : Char).utf8Size = 1 := by decide
  simp only [quoted, textSize, List.cons_append, utf8Size_cons, utf8Size_append, utf8Size_nil, inner,
    mark]
  omega

theorem newline_not_quoted (text : String) : '\n' ∉ quoted text := by
  simp only [quoted, List.cons_append, List.mem_cons, List.mem_append, List.mem_flatMap,
    List.not_mem_nil, or_false, not_or]
  refine ⟨by decide, ?_, by decide⟩
  rintro ⟨c, _, inside⟩
  exact newline_not_escaped c inside

theorem utf8Size_separated (texts : List (List Char)) :
    utf8Size (separated texts) = (texts.map utf8Size).sum + (texts.length - 1) := by
  induction texts with
  | nil => rfl
  | cons text rest ih =>
    cases rest with
    | nil => simp [separated]
    | cons next rest =>
      have comma : (',' : Char).utf8Size = 1 := by decide
      simp only [separated, utf8Size_append, utf8Size_cons, ih, comma, List.map_cons, List.sum_cons,
        List.length_cons]
      omega

theorem newline_not_separated {texts : List (List Char)} (each : ∀ text ∈ texts, '\n' ∉ text) :
    '\n' ∉ separated texts := by
  induction texts with
  | nil => simp [separated]
  | cons text rest ih =>
    obtain ⟨here, later⟩ := List.forall_mem_cons.mp each
    cases rest with
    | nil => exact here
    | cons next rest => simp [separated, here, ih later]

theorem digit_mem (member : c ∈ Nat.toDigits 10 n) : c ≠ '\n' ∧ c.utf8Size = 1 := by
  have digit := Nat.isDigit_of_mem_toDigits (by decide) (by decide) member
  simp only [Char.isDigit, Bool.and_eq_true, decide_eq_true_eq] at digit
  constructor
  · rintro rfl
    exact absurd digit.1 (by decide)
  · unfold Char.utf8Size
    rw [if_pos (by exact UInt32.le_trans digit.2 (by decide))]

theorem utf8Size_digits (n : Nat) : utf8Size (Nat.toDigits 10 n) = (Nat.toDigits 10 n).length := by
  have one : ∀ chars : List Char, (∀ c ∈ chars, c.utf8Size = 1) → utf8Size chars = chars.length := by
    intro chars each
    induction chars with
    | nil => rfl
    | cons c rest ih =>
      obtain ⟨here, later⟩ := List.forall_mem_cons.mp each
      rw [utf8Size_cons, here, ih later, List.length_cons, Nat.add_comm]
  exact one _ fun c member => (digit_mem member).2

mutual

/-- A value is written on one line. -/
theorem Json.newline_not_rendered : ∀ value : Json, '\n' ∉ value.render
  | .null => by decide
  | .bool true => by decide
  | .bool false => by decide
  | .num n => fun member => (digit_mem member).1 rfl
  | .neg n => fun member => by
    rcases List.mem_cons.mp member with same | digit
    · exact absurd same (by decide)
    · exact (digit_mem digit).1 rfl
  | .float number => fun member =>
    absurd (List.all_eq_true.mp number.shape.1 '\n' member) (by decide)
  | .str text => newline_not_quoted text
  | .arr items => by
    have inner := newline_not_separated (Json.newline_not_items items)
    simp [Json.render, inner]
  | .obj fields => by
    have inner := newline_not_separated (Json.newline_not_fields fields)
    simp [Json.render, inner]

theorem Json.newline_not_items : ∀ items : List Json, ∀ text ∈ Json.renderItems items, '\n' ∉ text
  | [] => by simp [Json.renderItems]
  | item :: rest => by
    have here := Json.newline_not_rendered item
    have later := Json.newline_not_items rest
    simpa [Json.renderItems] using ⟨here, later⟩

theorem Json.newline_not_field : ∀ field : String × Json, '\n' ∉ Json.renderField field
  | (key, value) => by
    have here := newline_not_quoted key
    have inner := Json.newline_not_rendered value
    simp [Json.renderField, here, inner]

theorem Json.newline_not_fields :
    ∀ fields : List (String × Json), ∀ text ∈ Json.renderFields fields, '\n' ∉ text
  | [] => by simp [Json.renderFields]
  | field :: rest => by
    have here := Json.newline_not_field field
    have later := Json.newline_not_fields rest
    simpa [Json.renderFields] using ⟨here, later⟩

end

end Values

section Envelopes

def textOrNull : Option String → Json
  | some text => .str text
  | none => .null

/-- `serde_json::to_value`; a map keeps its keys in order. -/
def Envelope.toValue (env : Envelope) : Json := .obj [
  ("ask_id", textOrNull env.askId),
  ("body", .str env.body),
  ("created_at", .str env.createdAt),
  ("expires_at", .str env.expiresAt),
  ("file_refs", .arr (env.fileRefs.map .str)),
  ("from_cell", .str env.fromCell),
  ("idempotency_key", .str env.idempotencyKey),
  ("kind", .str env.kind.asStr),
  ("message_id", .str env.messageId),
  ("msg_type", .str env.msgType.asStr),
  ("principal_capabilities", .arr (env.principalCapabilities.map .str)),
  ("reply_to", textOrNull env.replyTo),
  ("seq", .num env.seq),
  ("spec_version", .str env.specVersion),
  ("taint", .str env.taint),
  ("to_cell", textOrNull env.toCell)]

/-- The line of a successful `WireResponse`; the client numbers its calls 2. -/
def responseLine (result : Json) : List UInt8 :=
  utf8 (Json.obj [("id", .num 2), ("result", result)]).render

theorem newline_not_response (result : Json) : newline ∉ responseLine result :=
  newline_not_mem (Json.newline_not_rendered _)

def textOrNullSize : Option String → Nat
  | some text => textSize text
  | none => 4

def textsSize (texts : List String) : Nat :=
  2 + (texts.map textSize).sum + (texts.length - 1)

/-- The bytes of a message in a response. -/
def Envelope.wireSize (env : Envelope) : Nat :=
  207 + textOrNullSize env.askId + textSize env.body + textSize env.createdAt +
    textSize env.expiresAt + textsSize env.fileRefs + textSize env.fromCell +
    textSize env.idempotencyKey + textSize env.kind.asStr + textSize env.messageId +
    textSize env.msgType.asStr + textsSize env.principalCapabilities +
    textOrNullSize env.replyTo + (Nat.toDigits 10 env.seq).length + textSize env.specVersion +
    textSize env.taint + textOrNullSize env.toCell

theorem utf8Size_textOrNull (text : Option String) :
    utf8Size (textOrNull text).render = textOrNullSize text := by
  cases text with
  | none => decide
  | some text => exact utf8Size_quoted text

theorem renderItems_map (f : α → Json) (xs : List α) :
    Json.renderItems (xs.map f) = xs.map fun x => (f x).render := by
  induction xs with
  | nil => rfl
  | cons x rest ih => rw [List.map_cons, Json.renderItems, ih, List.map_cons]

theorem utf8Size_array (items : List Json) : utf8Size (Json.arr items).render =
    2 + ((Json.renderItems items).map utf8Size).sum + ((Json.renderItems items).length - 1) := by
  have opening : ('[' : Char).utf8Size = 1 := by decide
  have closing : (']' : Char).utf8Size = 1 := by decide
  simp only [Json.render, List.cons_append, utf8Size_cons, utf8Size_append, utf8Size_nil,
    utf8Size_separated, opening, closing]
  omega

theorem renderFields_eq (fields : List (String × Json)) :
    Json.renderFields fields = fields.map Json.renderField := by
  induction fields with
  | nil => rfl
  | cons field rest ih => rw [Json.renderFields, ih, List.map_cons]

theorem utf8Size_field (key : String) (value : Json) :
    utf8Size (Json.renderField (key, value)) = textSize key + 1 + utf8Size value.render := by
  have colon : (':' : Char).utf8Size = 1 := by decide
  simp only [Json.renderField, utf8Size_append, utf8Size_cons, utf8Size_quoted, colon]
  omega

theorem utf8Size_object (fields : List (String × Json)) : utf8Size (Json.obj fields).render =
    2 + (fields.map fun field => utf8Size (Json.renderField field)).sum + (fields.length - 1) := by
  have opening : ('{' : Char).utf8Size = 1 := by decide
  have closing : ('}' : Char).utf8Size = 1 := by decide
  simp only [Json.render, List.cons_append, utf8Size_cons, utf8Size_append, utf8Size_nil,
    utf8Size_separated, renderFields_eq, List.map_map, List.length_map, opening, closing,
    Function.comp_def]
  omega

theorem utf8Size_texts (texts : List String) :
    utf8Size (Json.arr (texts.map .str)).render = textsSize texts := by
  simp only [utf8Size_array, renderItems_map, List.map_map, List.length_map, textsSize]
  congr 3
  exact List.map_congr_left fun text _ => utf8Size_quoted text

theorem utf8Size_envelope (env : Envelope) : utf8Size env.toValue.render = env.wireSize := by
  have texts : ∀ text : String, utf8Size (Json.str text).render = textSize text := utf8Size_quoted
  have keys : textSize "ask_id" = 8 ∧ textSize "body" = 6 ∧ textSize "created_at" = 12 ∧
      textSize "expires_at" = 12 ∧ textSize "file_refs" = 11 ∧ textSize "from_cell" = 11 ∧
      textSize "idempotency_key" = 17 ∧ textSize "kind" = 6 ∧ textSize "message_id" = 12 ∧
      textSize "msg_type" = 10 ∧ textSize "principal_capabilities" = 24 ∧
      textSize "reply_to" = 10 ∧ textSize "seq" = 5 ∧ textSize "spec_version" = 14 ∧
      textSize "taint" = 7 ∧ textSize "to_cell" = 9 := by
    decide
  obtain ⟨k₁, k₂, k₃, k₄, k₅, k₆, k₇, k₈, k₉, k₁₀, k₁₁, k₁₂, k₁₃, k₁₄, k₁₅, k₁₆⟩ := keys
  have number : utf8Size (Json.num env.seq).render = _ := utf8Size_digits env.seq
  simp only [Envelope.toValue, utf8Size_object, List.map_cons, List.map_nil, List.sum_cons,
    List.sum_nil, List.length_cons, List.length_nil, utf8Size_field, utf8Size_textOrNull, texts,
    utf8Size_texts, number, Envelope.wireSize]
  omega

end Envelopes

section Client

structure WireError where
  code : String
  message : String
deriving DecidableEq, Repr

/-- `MAX_FRAME` of the client. -/
def maxFrame : Nat := 192 * 1024

/-- `read_line` of the client, with what it has read so far: each read gives some bytes, or
none at the end of the stream, or fails. What follows the line feed is dropped. -/
def readLine (buf : List UInt8) : List (Except String (List UInt8)) → Except WireError (List UInt8)
  | [] => .ok buf
  | .error e :: _ => .error ⟨"E_INTERNAL", e⟩
  | .ok chunk :: later =>
    if chunk.isEmpty then .ok buf
    else match chunk.idxOf? newline with
      | some pos => .ok (buf ++ chunk.take pos)
      | none =>
        if (buf ++ chunk).length > maxFrame then .error ⟨"E_INTERNAL", "frame too large"⟩
        else readLine (buf ++ chunk) later

/-- The bytes arrive in these reads, each of them at most as large as the buffer. -/
structure Arrives (bytes : List UInt8) (chunks : List (List UInt8)) : Prop where
  whole : chunks.flatten = bytes
  sizes : ∀ chunk ∈ chunks, 0 < chunk.length ∧ chunk.length ≤ 4096

/-- A stream may arrive byte by byte. -/
theorem arrives_bytes (bytes : List UInt8) : Arrives bytes (bytes.map fun byte => [byte]) := by
  constructor
  · induction bytes with
    | nil => rfl
    | cons byte rest ih => simp [ih]
  · intro chunk member
    obtain ⟨byte, _, rfl⟩ := List.mem_map.mp member
    simp

/-- The client gets the line, in whatever pieces it arrives. -/
def Received (line : List UInt8) : Prop :=
  ∀ chunks, Arrives (line ++ [newline]) chunks → readLine [] (chunks.map .ok) = .ok line

/-- The client gives the line up, in whatever pieces it arrives. -/
def GivenUp (line : List UInt8) : Prop :=
  ∀ chunks, Arrives (line ++ [newline]) chunks →
    readLine [] (chunks.map .ok) = .error ⟨"E_INTERNAL", "frame too large"⟩

/-- What stands before and behind the first separator is determined. -/
theorem separator_split {before after line rest : List UInt8} (clean : newline ∉ before)
    (free : newline ∉ line) (same : before ++ newline :: after = line ++ newline :: rest) :
    before = line ∧ after = rest := by
  rcases List.append_eq_append_iff.mp same with ⟨more, rfl, tail⟩ | ⟨more, rfl, tail⟩
  · cases more with
    | nil => exact ⟨(List.append_nil _).symm, (List.cons.inj tail).2⟩
    | cons byte more =>
      rw [List.cons_append, List.cons.injEq] at tail
      exact absurd (by simp [← tail.1]) free
  · cases more with
    | nil => exact ⟨List.append_nil _, (List.cons.inj tail).2.symm⟩
    | cons byte more =>
      rw [List.cons_append, List.cons.injEq] at tail
      exact absurd (by simp [← tail.1]) clean

/-- A read that ends the line splits at its first line feed. -/
theorem idxOf?_split {chunk : List UInt8} (found : chunk.idxOf? newline = some pos) :
    newline ∉ chunk.take pos ∧ ∃ after, chunk = chunk.take pos ++ newline :: after := by
  obtain ⟨inside, here, before⟩ := List.idxOf?_eq_some_iff.mp found
  constructor
  · intro member
    obtain ⟨j, small, same⟩ := List.mem_iff_getElem.mp member
    rw [List.length_take] at small
    rw [List.getElem_take] at same
    exact before j (by omega) same
  · refine ⟨chunk.drop (pos + 1), ?_⟩
    rw [← here, List.getElem_cons_drop, List.take_append_drop]

/-- The read with the line feed completes the line. -/
theorem line_completed {line buf chunk rest : List UInt8} (free : newline ∉ line)
    (clean : newline ∉ buf) (found : chunk.idxOf? newline = some pos)
    (whole : buf ++ chunk ++ rest = line ++ [newline]) : buf ++ chunk.take pos = line := by
  obtain ⟨before, after, split⟩ := idxOf?_split found
  have ended : (buf ++ chunk.take pos) ++ newline :: (after ++ rest) = line ++ [newline] := by
    calc (buf ++ chunk.take pos) ++ newline :: (after ++ rest)
        = buf ++ (chunk.take pos ++ newline :: after) ++ rest := by simp
      _ = buf ++ chunk ++ rest := by rw [← split]
      _ = line ++ [newline] := whole
  exact (separator_split (by simp [clean, before]) free ended).1

/-- A line within the bound is read whatever its pieces are. -/
theorem readLine_within {line buf : List UInt8} {chunks : List (List UInt8)}
    (free : newline ∉ line) (fits : line.length ≤ maxFrame)
    (whole : buf ++ chunks.flatten = line ++ [newline])
    (sizes : ∀ chunk ∈ chunks, 0 < chunk.length ∧ chunk.length ≤ 4096) (clean : newline ∉ buf) :
    readLine buf (chunks.map .ok) = .ok line := by
  induction chunks generalizing buf with
  | nil =>
    rw [List.flatten_nil, List.append_nil] at whole
    exact absurd (by simp [whole]) clean
  | cons chunk rest ih =>
    obtain ⟨⟨some, _⟩, later⟩ := List.forall_mem_cons.mp sizes
    have filled : chunk.isEmpty = false := by simpa [List.length_pos_iff] using some
    rw [List.flatten_cons, ← List.append_assoc] at whole
    simp only [List.map_cons, readLine, filled, Bool.false_eq_true, if_false]
    cases found : chunk.idxOf? newline with
    | some pos => exact congrArg Except.ok (line_completed free clean found whole)
    | none =>
      have open' : newline ∉ buf ++ chunk := by
        simpa [clean] using List.idxOf?_eq_none_iff.mp found
      have short : (buf ++ chunk).length ≤ line.length := by
        cases left : rest.flatten with
        | nil =>
          rw [left, List.append_nil] at whole
          exact absurd (by simp [whole]) open'
        | cons byte more =>
          have lengths := congrArg List.length whole
          rw [left] at lengths
          simp only [List.length_append, List.length_cons, List.length_nil] at lengths ⊢
          omega
      simp only [if_neg (Nat.not_lt.mpr (Nat.le_trans short fits))]
      exact ih whole later open'

/-- A longer line that arrives byte by byte is given up. -/
theorem readLine_beyond {line buf : List UInt8} (free : newline ∉ line)
    (within : buf.length ≤ maxFrame) (long : maxFrame < buf.length + line.length)
    (later : List (Except String (List UInt8))) :
    readLine buf (line.map (fun byte => .ok [byte]) ++ later) =
      .error ⟨"E_INTERNAL", "frame too large"⟩ := by
  induction line generalizing buf with
  | nil =>
    rw [List.length_nil] at long
    omega
  | cons byte rest ih =>
    obtain ⟨here, free⟩ := not_or.mp (List.mem_cons.not.mp free)
    have other : (byte == newline) = false := by simpa using Ne.symm here
    simp only [List.map_cons, List.cons_append, readLine, List.isEmpty_cons, Bool.false_eq_true,
      if_false, List.idxOf?_singleton, other]
    split
    · rfl
    · rename_i short
      rw [List.length_cons] at long
      refine ih free (by omega) ?_
      rw [List.length_append, List.length_singleton]
      omega

/-- A line that is longer by a whole read than the bound is given up whatever its pieces
are: the read that completes it starts beyond the bound. -/
theorem readLine_far_beyond {line buf : List UInt8} {chunks : List (List UInt8)}
    (free : newline ∉ line) (long : maxFrame + 4096 ≤ line.length)
    (whole : buf ++ chunks.flatten = line ++ [newline])
    (sizes : ∀ chunk ∈ chunks, 0 < chunk.length ∧ chunk.length ≤ 4096)
    (clean : newline ∉ buf) (within : buf.length ≤ maxFrame) :
    readLine buf (chunks.map .ok) = .error ⟨"E_INTERNAL", "frame too large"⟩ := by
  induction chunks generalizing buf with
  | nil =>
    rw [List.flatten_nil, List.append_nil] at whole
    exact absurd (by simp [whole]) clean
  | cons chunk rest ih =>
    obtain ⟨⟨some, small⟩, later⟩ := List.forall_mem_cons.mp sizes
    have filled : chunk.isEmpty = false := by simpa [List.length_pos_iff] using some
    rw [List.flatten_cons, ← List.append_assoc] at whole
    simp only [List.map_cons, readLine, filled, Bool.false_eq_true, if_false]
    cases found : chunk.idxOf? newline with
    | some pos =>
      obtain ⟨inside, _⟩ := List.idxOf?_eq_some_iff.mp found
      have lengths := congrArg List.length (line_completed free clean found whole)
      rw [List.length_append, List.length_take] at lengths
      omega
    | none =>
      have open' : newline ∉ buf ++ chunk := by
        simpa [clean] using List.idxOf?_eq_none_iff.mp found
      by_cases large : (buf ++ chunk).length > maxFrame
      · simp only [if_pos large]
      · simp only [if_neg large]
        exact ih whole later open' (Nat.le_of_not_lt large)

theorem givenUp_of_long {line : List UInt8} (free : newline ∉ line)
    (long : maxFrame + 4096 ≤ line.length) : GivenUp line := fun _ arrives =>
  readLine_far_beyond free long arrives.whole arrives.sizes (by simp) (Nat.zero_le _)

/-- The client gets a line in whatever pieces exactly when the line fits its bound. -/
theorem received_iff {line : List UInt8} (free : newline ∉ line) :
    Received line ↔ line.length ≤ maxFrame := by
  constructor
  · intro received
    by_contra long
    have lost : readLine [] (line.map (fun byte => .ok [byte]) ++ [.ok [newline]]) = _ :=
      readLine_beyond free (Nat.zero_le _) (by simpa using long) _
    have read := received _ (arrives_bytes _)
    rw [List.map_append, List.map_append, List.map_map] at read
    cases lost.symm.trans read
  · intro fits chunks arrives
    exact readLine_within free fits arrives.whole arrives.sizes (by simp)

end Client
end Crewd
