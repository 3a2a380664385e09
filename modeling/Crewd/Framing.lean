import Crewd.Handler
import Crewd.Wire

/-! Frames as the daemon reads them: lines of a byte stream, each call with its own
bound, what a read brought beyond the line feed carried over to the next call. -/
namespace Crewd

/-- What the reads of a socket give, one after the other: some bytes, none at the end of
the stream, or an error. -/
abbrev Reads := List (Except String (List UInt8))

def maxHandshakeBytes : Nat := 8 * 1024

def maxFrameBytes : Nat := 192 * 1024

structure FrameReader where
  carry : List UInt8
deriving DecidableEq

namespace FrameReader

def new : FrameReader := ⟨[]⟩

/-- The outcome of a call, and the reader and the reads it leaves. -/
def readBoundedLine (max : Nat) (reader : FrameReader) (stream : Reads) :
    Except String (List UInt8) × FrameReader × Reads :=
  match reader.carry.idxOf? newline with
  | some pos => (.ok (reader.carry.take pos), ⟨reader.carry.drop (pos + 1)⟩, stream)
  | none =>
    if reader.carry.length > max then (.error "frame too large", reader, stream)
    else match stream with
      | [] => (.ok reader.carry, ⟨[]⟩, [])
      | .error e :: later => (.error e, reader, later)
      | .ok chunk :: later =>
        if chunk.isEmpty then (.ok reader.carry, ⟨[]⟩, later)
        else readBoundedLine max ⟨reader.carry ++ chunk⟩ later

/-- Successive calls with these bounds. -/
def readLines : List Nat → FrameReader → Reads → List (Except String (List UInt8))
  | [], _, _ => []
  | max :: later, reader, stream =>
    let (line, after, left) := reader.readBoundedLine max stream
    line :: readLines later after left

/-- The bounds of a connection: its handshake first, then its requests. -/
def bounds (requests : Nat) : List Nat := maxHandshakeBytes :: .replicate requests maxFrameBytes

section Calls
variable {max : Nat} {reader : FrameReader} {stream : Reads} {line rest residue : List UInt8}
  {more : List UInt8} {chunks : List (List UInt8)}

/-- A line that has been carried over is returned without a read. -/
theorem readBoundedLine_carried (held : newline ∈ reader.carry) (free : newline ∉ line)
    (whole : reader.carry ++ more = line ++ newline :: rest) :
    ∃ carry, reader.readBoundedLine max stream = (.ok line, ⟨carry⟩, stream) ∧
      carry ++ more = rest := by
  obtain ⟨pos, found⟩ : ∃ pos, reader.carry.idxOf? newline = some pos := by
    cases found : reader.carry.idxOf? newline with
    | none => exact absurd held (List.idxOf?_eq_none_iff.mp found)
    | some pos => exact ⟨pos, rfl⟩
  have split : reader.carry = reader.carry.take pos ++ newline :: reader.carry.drop (pos + 1) := by
    obtain ⟨inside, here, _⟩ := List.idxOf?_eq_some_iff.mp found
    rw [← here, List.getElem_cons_drop, List.take_append_drop]
  obtain ⟨before, _⟩ := idxOf?_split found
  rw [split, List.append_assoc, List.cons_append] at whole
  obtain ⟨same, tail⟩ := separator_split before free whole
  refine ⟨_, ?_, tail⟩
  rw [readBoundedLine.eq_def]
  simp only [found, same]

/-- Without a line feed carried over, a call within its bound goes on with the next read. -/
theorem readBoundedLine_read {chunk : List UInt8} (open' : newline ∉ reader.carry)
    (within : reader.carry.length ≤ max) (some : chunk ≠ []) :
    reader.readBoundedLine max (.ok chunk :: stream) =
      readBoundedLine max ⟨reader.carry ++ chunk⟩ stream := by
  rw [readBoundedLine.eq_def, List.idxOf?_eq_none_iff.mpr open']
  simp [Nat.not_lt.mpr within, some]

theorem readBoundedLine_end (open' : newline ∉ reader.carry) (within : reader.carry.length ≤ max) :
    reader.readBoundedLine max [] = (.ok reader.carry, new, []) := by
  rw [readBoundedLine.eq_def, List.idxOf?_eq_none_iff.mpr open']
  simp [Nat.not_lt.mpr within, new]

theorem readBoundedLine_refused (open' : newline ∉ reader.carry)
    (beyond : max < reader.carry.length) :
    reader.readBoundedLine max stream = (.error "frame too large", reader, stream) := by
  rw [readBoundedLine.eq_def, List.idxOf?_eq_none_iff.mpr open']
  simp [beyond]

/-- What is carried over without a line feed is the beginning of the line. -/
theorem carry_short {carry more : List UInt8} (open' : newline ∉ carry)
    (whole : carry ++ more = line ++ newline :: rest) : carry.length ≤ line.length := by
  by_contra long
  have start := congrArg (List.take carry.length) whole
  rw [List.take_left' rfl] at start
  apply open'
  rw [start]
  apply List.mem_take_iff_getElem.mpr
  exact ⟨line.length, by simp; omega, by simp⟩

/-- A line whose line feed is carried over is shorter than what is. -/
theorem line_short {carry more : List UInt8} (held : newline ∈ carry) (free : newline ∉ line)
    (whole : carry ++ more = line ++ newline :: rest) : line.length < carry.length := by
  by_contra long
  have start := congrArg (List.take carry.length) whole
  rw [List.take_left' rfl, List.take_append_of_le_length (by omega)] at start
  rw [start] at held
  exact free (List.mem_of_mem_take held)

/-- A line within the bound is returned, and what follows it is left. -/
theorem readBoundedLine_frame (free : newline ∉ line) (fits : line.length ≤ max)
    (filled : ∀ chunk ∈ chunks, chunk ≠ [])
    (whole : reader.carry ++ chunks.flatten = line ++ newline :: rest) :
    ∃ (carry : List UInt8) (left : List (List UInt8)),
      reader.readBoundedLine max (chunks.map .ok) =
        (.ok line, ⟨carry⟩, left.map .ok) ∧
      (∀ chunk ∈ left, chunk ≠ []) ∧ carry ++ left.flatten = rest := by
  induction chunks generalizing reader with
  | nil =>
    have held : newline ∈ reader.carry := by
      rw [List.flatten_nil, List.append_nil] at whole
      simp [whole]
    obtain ⟨carry, read, tail⟩ := readBoundedLine_carried held free whole
    exact ⟨carry, [], read, filled, tail⟩
  | cons chunk later ih =>
    by_cases held : newline ∈ reader.carry
    · obtain ⟨carry, read, tail⟩ := readBoundedLine_carried held free whole
      exact ⟨carry, chunk :: later, read, filled, tail⟩
    · obtain ⟨here, filled⟩ := List.forall_mem_cons.mp filled
      have within := Nat.le_trans (carry_short held whole) fits
      rw [List.flatten_cons, ← List.append_assoc] at whole
      rw [List.map_cons, readBoundedLine_read held within here]
      exact ih filled whole

/-- What stands before the end of the stream is returned when it has no line feed. -/
theorem readBoundedLine_residue (free : newline ∉ residue) (fits : residue.length ≤ max)
    (filled : ∀ chunk ∈ chunks, chunk ≠ []) (whole : reader.carry ++ chunks.flatten = residue) :
    reader.readBoundedLine max (chunks.map .ok) = (.ok residue, new, []) := by
  have open' : newline ∉ reader.carry := fun held => free (by simp [← whole, held])
  have within : reader.carry.length ≤ max := by
    have lengths := congrArg List.length whole
    rw [List.length_append] at lengths
    omega
  induction chunks generalizing reader with
  | nil =>
    rw [List.flatten_nil, List.append_nil] at whole
    rw [← whole]
    exact readBoundedLine_end open' within
  | cons chunk later ih =>
    obtain ⟨here, filled⟩ := List.forall_mem_cons.mp filled
    rw [List.flatten_cons, ← List.append_assoc] at whole
    rw [List.map_cons, readBoundedLine_read open' within here]
    apply ih filled whole
    · exact fun held => free (by rw [← whole]; exact List.mem_append_left _ held)
    · have lengths := congrArg List.length whole
      rw [List.length_append] at lengths
      change (reader.carry ++ chunk).length ≤ max
      omega

/-- Each call returns the next frame, and the last one what stands before the end. -/
theorem readLines_frames {frames : List (List UInt8)} {limits : List Nat}
    (fits : List.Forall₂ (fun frame max => frame.length ≤ max) (frames ++ [residue]) limits)
    (free : ∀ frame ∈ frames ++ [residue], newline ∉ frame)
    (filled : ∀ chunk ∈ chunks, chunk ≠ [])
    (whole : reader.carry ++ chunks.flatten =
      frames.flatMap (fun frame => frame ++ [newline]) ++ residue) :
    readLines limits reader (chunks.map .ok) = (frames ++ [residue]).map .ok := by
  induction frames generalizing limits reader chunks with
  | nil =>
    obtain ⟨max, _, within, last, rfl⟩ := List.forall₂_cons_left_iff.mp fits
    obtain rfl := List.forall₂_nil_left_iff.mp last
    have clean := free residue (by simp)
    rw [readLines, readBoundedLine_residue clean within filled whole]
    rfl
  | cons frame later ih =>
    obtain ⟨max, others, within, later', rfl⟩ := List.forall₂_cons_left_iff.mp fits
    obtain ⟨clean, free⟩ := List.forall_mem_cons.mp free
    rw [List.flatMap_cons, List.append_assoc, List.append_assoc] at whole
    obtain ⟨carry, left, read, filled, tail⟩ := readBoundedLine_frame clean within filled whole
    rw [readLines, read]
    simp only [List.cons_append, List.map_cons]
    rw [ih later' free filled tail]

end Calls

/-- No frame is lost or merged: the calls of a connection return the frames it was sent,
in order, and then what stands before the end, however the reads cut the stream. -/
theorem frames_read_in_order {frames : List (List UInt8)} {residue : List UInt8}
    {chunks : List (List UInt8)} (free : ∀ frame ∈ frames ++ [residue], newline ∉ frame)
    (fits : List.Forall₂ (fun frame max => frame.length ≤ max) (frames ++ [residue])
      (bounds frames.length))
    (arrives : Arrives (frames.flatMap (fun frame => frame ++ [newline]) ++ residue) chunks) :
    readLines (bounds frames.length) new (chunks.map .ok) = (frames ++ [residue]).map .ok := by
  apply readLines_frames fits free
  · exact fun chunk member => List.length_pos_iff.mp (arrives.sizes chunk member).1
  · exact arrives.whole

theorem coalesced_frames_read :
    readLines (bounds 2) new [.ok [104, 10, 99], .ok [108, 10]] =
      [.ok [104], .ok [99, 108], .ok []] := by
  have free : ∀ frame ∈ [[104], [99, 108]] ++ [[]], newline ∉ frame := by decide
  have arrives : Arrives ([104, 10, 99, 108, 10] ++ []) [[104, 10, 99], [108, 10]] :=
    ⟨rfl, by decide⟩
  exact frames_read_in_order free (by decide) arrives

/-- The outcome of a call that finds these bytes carried over. -/
def outcome (max : Nat) (carry : List UInt8) (chunks : List (List UInt8)) :
    Except String (List UInt8) :=
  (readBoundedLine max ⟨carry⟩ (chunks.map .ok)).1

/-- However the bytes arrive, no longer line is returned, and whether a line is returned
is the same. -/
structure Bounded (max : Nat) (carry bytes : List UInt8) : Prop where
  short : ∀ chunks line, Arrives bytes chunks → outcome max carry chunks = .ok line →
    line.length ≤ max
  same : ∀ chunks chunks', Arrives bytes chunks → Arrives bytes chunks' →
    ((∃ line, outcome max carry chunks = .ok line) ↔ ∃ line, outcome max carry chunks' = .ok line)

/-- The first line is too long, and its line feed either has been carried over or may come
with the read that takes the line past the bound. -/
def Slips (max : Nat) (carry bytes : List UInt8) : Prop :=
  ∃ line rest, carry ++ bytes = line ++ newline :: rest ∧ newline ∉ line ∧ max < line.length ∧
    (newline ∈ carry ∨ carry.length ≤ max ∧ line.length < max + 4096)

section Bound
variable {max : Nat} {carry bytes line : List UInt8} {chunks : List (List UInt8)}

theorem outcome_carried (max : Nat) (chunks : List (List UInt8)) (held : newline ∈ carry) : ∃ line rest,
    carry ++ chunks.flatten = line ++ newline :: rest ∧ newline ∉ line ∧
      outcome max carry chunks = .ok line := by
  obtain ⟨line, rest, split, free⟩ := List.eq_append_cons_of_mem held
  have whole : carry ++ chunks.flatten = line ++ newline :: (rest ++ chunks.flatten) := by
    rw [split, List.append_assoc, List.cons_append]
  have inside : newline ∈ (FrameReader.mk carry).carry := held
  obtain ⟨_, read, _⟩ := readBoundedLine_carried inside free whole
  exact ⟨line, _, whole, free, congrArg Prod.fst read⟩

/-- What a call that succeeds has returned. -/
theorem outcome_ok (sizes : ∀ chunk ∈ chunks, 0 < chunk.length ∧ chunk.length ≤ 4096)
    (read : outcome max carry chunks = .ok line) :
    (∃ rest, carry ++ chunks.flatten = line ++ newline :: rest ∧ newline ∉ line ∧
      (newline ∈ carry ∨ carry.length ≤ max ∧ line.length < max + 4096)) ∨
    (carry ++ chunks.flatten = line ∧ newline ∉ line ∧ line.length ≤ max) := by
  induction chunks generalizing carry with
  | nil =>
    by_cases held : newline ∈ carry
    · obtain ⟨line', rest, whole, free, first⟩ := outcome_carried max [] held
      cases first.symm.trans read
      exact .inl ⟨rest, whole, free, .inl held⟩
    · rcases Nat.lt_or_ge max carry.length with beyond | within
      · rw [outcome, readBoundedLine_refused held beyond] at read
        cases read
      · rw [outcome, List.map_nil, readBoundedLine_end held within] at read
        cases read
        exact .inr ⟨List.append_nil _, held, within⟩
  | cons chunk later ih =>
    by_cases held : newline ∈ carry
    · obtain ⟨line', rest, whole, free, first⟩ :=
        outcome_carried max (chunk :: later) held
      cases first.symm.trans read
      exact .inl ⟨rest, whole, free, .inl held⟩
    · rcases Nat.lt_or_ge max carry.length with beyond | within
      · rw [outcome, readBoundedLine_refused held beyond] at read
        cases read
      · obtain ⟨⟨some, small⟩, sizes⟩ := List.forall_mem_cons.mp sizes
        rw [outcome, List.map_cons, readBoundedLine_read held within
          (List.length_pos_iff.mp some)] at read
        rw [List.flatten_cons, ← List.append_assoc]
        rcases ih sizes read with ⟨rest, whole, free, inside | ⟨_, near⟩⟩ | residue
        · have less := line_short inside free whole
          rw [List.length_append] at less
          change line.length < carry.length + chunk.length at less
          exact .inl ⟨rest, whole, free, .inr ⟨within, by omega⟩⟩
        · exact .inl ⟨rest, whole, free, .inr ⟨within, near⟩⟩
        · exact .inr residue

/-- A line that fits is returned, whatever the reads. -/
theorem outcome_within (arrives : Arrives bytes chunks) (free : newline ∉ line)
    (fits : line.length ≤ max)
    (whole : (∃ rest, carry ++ bytes = line ++ newline :: rest) ∨ carry ++ bytes = line) :
    outcome max carry chunks = .ok line := by
  have filled : ∀ chunk ∈ chunks, chunk ≠ [] := fun chunk member =>
    List.length_pos_iff.mp (arrives.sizes chunk member).1
  rw [← arrives.whole] at whole
  rcases whole with ⟨rest, whole⟩ | whole
  · obtain ⟨_, _, read, _⟩ := readBoundedLine_frame free fits filled
      (show (FrameReader.mk carry).carry ++ chunks.flatten = line ++ newline :: rest from whole)
    exact congrArg Prod.fst read
  · exact congrArg Prod.fst (readBoundedLine_residue free fits filled
      (show (FrameReader.mk carry).carry ++ chunks.flatten = line from whole))

theorem bounded_of_not_slips (firm : ¬ Slips max carry bytes) : Bounded max carry bytes := by
  have short : ∀ chunks line, Arrives bytes chunks → outcome max carry chunks = .ok line →
      line.length ≤ max := by
    intro chunks line arrives read
    rcases outcome_ok arrives.sizes read with ⟨rest, whole, free, way⟩ | ⟨_, _, within⟩
    · by_contra long
      rw [arrives.whole] at whole
      exact firm ⟨line, rest, whole, free, Nat.lt_of_not_le long, way⟩
    · exact within
  have moved : ∀ chunks chunks', Arrives bytes chunks → Arrives bytes chunks' →
      (∃ line, outcome max carry chunks = .ok line) →
      ∃ line, outcome max carry chunks' = .ok line := by
    rintro chunks chunks' arrives arrives' ⟨line, read⟩
    have fits := short chunks line arrives read
    have known := outcome_ok arrives.sizes read
    rw [arrives.whole] at known
    rcases known with ⟨rest, whole, free, _⟩ | ⟨whole, free, _⟩
    · exact ⟨line, outcome_within arrives' free fits (.inl ⟨rest, whole⟩)⟩
    · exact ⟨line, outcome_within arrives' free fits (.inr whole)⟩
  exact ⟨short, fun chunks chunks' arrives arrives' =>
    ⟨moved chunks chunks' arrives arrives', moved chunks' chunks arrives' arrives⟩⟩

/-- Bytes that arrive one by one within the bound are carried over. -/
theorem readBoundedLine_bytes {reader : FrameReader} {stream : Reads}
    (open' : newline ∉ reader.carry ++ bytes) (within : (reader.carry ++ bytes).length ≤ max) :
    reader.readBoundedLine max (bytes.map (fun byte => .ok [byte]) ++ stream) =
      readBoundedLine max ⟨reader.carry ++ bytes⟩ stream := by
  induction bytes generalizing reader with
  | nil => rw [List.append_nil, List.map_nil, List.nil_append]
  | cons byte later ih =>
    have before : newline ∉ reader.carry := fun held => open' (List.mem_append_left _ held)
    have room : reader.carry.length ≤ max := by
      rw [List.length_append] at within
      omega
    rw [List.append_cons] at open' within
    rw [List.map_cons, List.cons_append, readBoundedLine_read before room (List.cons_ne_nil _ _),
      ih open' within]
    simp only [List.append_assoc, List.cons_append, List.nil_append]

/-- A line past the bound is returned when its line feed comes with the read that takes it
there. -/
theorem outcome_slipped {more rest : List UInt8} (free : newline ∉ carry ++ more)
    (within : carry.length ≤ max) (long : max < (carry ++ more).length)
    (near : (carry ++ more).length < max + 4096) : ∃ chunks,
      Arrives (more ++ newline :: rest) chunks ∧ outcome max carry chunks = .ok (carry ++ more) := by
  obtain ⟨first, last, split, size⟩ : ∃ first last, more = first ++ last ∧
      (carry ++ first).length = max := by
    refine ⟨more.take (max - carry.length), more.drop (max - carry.length),
      (List.take_append_drop _ _).symm, ?_⟩
    rw [List.length_append] at long ⊢
    rw [List.length_take]
    omega
  subst split
  refine ⟨first.map (fun byte => [byte]) ++ [last ++ [newline]] ++ rest.map fun byte => [byte],
    ?_, ?_⟩
  · have start := arrives_bytes first
    have tail := arrives_bytes rest
    constructor
    · rw [List.flatten_append, List.flatten_append, start.whole, tail.whole]
      simp
    · intro chunk member
      rcases List.mem_append.mp member with member | member
      · rcases List.mem_append.mp member with member | member
        · exact start.sizes chunk member
        · obtain rfl := List.mem_singleton.mp member
          simp only [List.length_append, List.length_singleton] at *
          omega
      · exact tail.sizes chunk member
  · have open' : newline ∉ (FrameReader.mk carry).carry ++ first := fun held => free (by
      rw [← List.append_assoc]
      exact List.mem_append_left _ held)
    have steps : ∀ stream : Reads, readBoundedLine max ⟨carry⟩
        (first.map (fun byte => .ok [byte]) ++ stream) = readBoundedLine max ⟨carry ++ first⟩ stream :=
      fun stream => readBoundedLine_bytes open' (Nat.le_of_eq size)
    have held : newline ∈ (FrameReader.mk (carry ++ first ++ (last ++ [newline]))).carry := by simp
    have whole : carry ++ first ++ (last ++ [newline]) ++ [] =
        carry ++ (first ++ last) ++ newline :: [] := by simp
    obtain ⟨_, read, _⟩ := readBoundedLine_carried held free whole
    rw [outcome, List.map_append, List.map_append, List.map_map, List.append_assoc]
    simp only [Function.comp_def, steps, List.map_cons, List.map_nil, List.cons_append, List.nil_append]
    rw [readBoundedLine_read open' (Nat.le_of_eq size) (by simp)]
    exact congrArg Prod.fst read

theorem not_bounded_of_slips (slips : Slips max carry bytes) : ¬ Bounded max carry bytes := by
  intro bounded
  obtain ⟨line, rest, whole, free, long, way⟩ := slips
  by_cases held : newline ∈ carry
  · have arrives := arrives_bytes bytes
    rw [← arrives.whole] at whole
    obtain ⟨line', rest', whole', free', read⟩ :=
      outcome_carried max (bytes.map fun byte => [byte]) held
    obtain ⟨rfl, _⟩ := separator_split free free' (whole.symm.trans whole')
    exact absurd (bounded.short _ _ arrives read) (Nat.not_le.mpr long)
  · obtain ⟨within, near⟩ := way.resolve_left held
    obtain ⟨more, rfl, rfl⟩ : ∃ more, line = carry ++ more ∧ bytes = more ++ newline :: rest := by
      rcases List.append_eq_append_iff.mp whole with ⟨more, grown, tail⟩ | ⟨more, grown, _⟩
      · exact ⟨more, grown, tail⟩
      · rw [grown, List.length_append] at within
        omega
    obtain ⟨chunks, arrives, read⟩ := outcome_slipped free within long near
    exact absurd (bounded.short _ _ arrives read) (Nat.not_le.mpr long)

end Bound

/-- A call keeps its bound exactly when the first line fits, never ends, or is so long that
its line feed cannot come with the read that passes the bound. -/
theorem frame_bound_iff (max : Nat) (carry bytes : List UInt8) :
    Bounded max carry bytes ↔ ¬ Slips max carry bytes :=
  ⟨fun bounded slips => not_bounded_of_slips slips bounded, bounded_of_not_slips⟩

/-- A handshake of one byte more than its bound. -/
def longHandshake : List UInt8 := .replicate 8193 97

theorem handshake_slips :
    ¬ ∀ max carry bytes, Bounded max carry bytes := by
  intro always
  have slips : Slips maxHandshakeBytes [] (longHandshake ++ [newline]) := by
    refine ⟨longHandshake, [], rfl, ?_, ?_, .inr ⟨Nat.zero_le _, ?_⟩⟩
    · exact fun held => absurd (List.eq_of_mem_replicate held) (by decide)
    · rw [longHandshake, List.length_replicate]
      decide
    · rw [longHandshake, List.length_replicate]
      decide
  exact not_bounded_of_slips slips (always _ _ _)

/-- A line that arrives byte by byte is refused where it passes the bound. -/
theorem outcome_refused {max : Nat} {line rest : List UInt8} (free : newline ∉ line)
    (long : max < line.length) : outcome max [] ((line ++ rest).map fun byte => [byte]) =
      .error "frame too large" := by
  have split : line = line.take max ++ (line)[max] :: line.drop (max + 1) := by simp
  have size : (line.take max).length = max := List.length_take_of_le (Nat.le_of_lt long)
  have start : newline ∉ line.take max := fun held => free (List.mem_of_mem_take held)
  have beyond : newline ∉ line.take max ++ [(line)[max]] := by
    intro held
    rw [List.take_append_getElem] at held
    exact free (List.mem_of_mem_take held)
  have steps : ∀ stream : Reads, readBoundedLine max ⟨[]⟩
      ((line.take max).map (fun byte => .ok [byte]) ++ stream) =
        readBoundedLine max ⟨[] ++ line.take max⟩ stream :=
    fun stream => readBoundedLine_bytes start (Nat.le_of_eq size)
  rw [outcome, split, List.append_assoc, List.map_append, List.map_append, List.map_map]
  simp only [Function.comp_def, steps, List.map_cons, List.cons_append, List.nil_append]
  have passed : max < (line.take max ++ [(line)[max]]).length := by
    rw [List.length_append, size]
    exact Nat.lt_succ_self max
  rw [readBoundedLine_read start (Nat.le_of_eq size) (List.cons_ne_nil _ _),
    readBoundedLine_refused beyond passed]

/-- A request is read in whatever pieces exactly when it fits the bound. -/
theorem read_whole_iff {max : Nat} {line : List UInt8} (free : newline ∉ line) :
    (∀ chunks, Arrives (line ++ [newline]) chunks → outcome max [] chunks = .ok line) ↔
      line.length ≤ max := by
  constructor
  · intro read
    by_contra long
    cases (outcome_refused free (Nat.lt_of_not_le long)).symm.trans (read _ (arrives_bytes _))
  · intro fits chunks arrives
    exact outcome_within arrives free fits (.inl ⟨[], List.nil_append _⟩)

end FrameReader

section Requests
variable {id : Nat} {before after : List (String × Json)} {body : String}

/-- `serde_json::to_vec` of the `WireRequest` of a send; the other fields of its parameters
stand before and after the body. -/
def sendLine (id : Nat) (before after : List (String × Json)) (body : String) : List UInt8 :=
  utf8 (Json.obj [("id", .num id), ("method", .str "cell_send"),
    ("params", .obj (before ++ ("body", .str body) :: after))]).render

/-- The bytes of a send but for its body. -/
def overhead (id : Nat) (fields : List (String × Json)) : Nat :=
  49 + (Nat.toDigits 10 id).length +
    (fields.map fun field => utf8Size (Json.renderField field) + 1).sum

/-- Characters with a short escape, of two bytes for one. -/
def shortEscape (c : Char) : Bool := c = '"' || c = '\\' || c.toNat ∈ [8, 9, 10, 12, 13]

/-- The other control characters, whose escape takes six bytes for one. -/
def longEscape (c : Char) : Bool := c.toNat < 32 && c.toNat ∉ [8, 9, 10, 12, 13]

/-- The bytes that escaping adds to a text. -/
def escapeCost (text : String) : Nat :=
  text.toList.countP shortEscape + 5 * text.toList.countP longEscape

theorem utf8ByteSize_eq (text : String) : text.utf8ByteSize = utf8Size text.toList := by
  have each : ∀ chars : List Char, (String.ofList chars).utf8ByteSize = utf8Size chars := by
    intro chars
    induction chars with
    | nil => rfl
    | cons c rest ih =>
      rw [← List.singleton_append, String.ofList_append, String.utf8ByteSize_append, ih]
      simp
  rw [← each, String.ofList_toList]

theorem utf8Size_ascii {c : Char} (small : c.toNat < 128) : c.utf8Size = 1 := by
  unfold Char.utf8Size
  rw [if_pos (by exact UInt32.le_iff_toNat_le.mpr (Nat.le_of_lt_succ small))]

theorem escapedSize_eq (c : Char) : escapedSize c =
    c.utf8Size + (if shortEscape c then 1 else 0) + 5 * (if longEscape c then 1 else 0) := by
  by_cases quote : c = '"'
  · subst quote
    decide
  by_cases slash : c = '\\'
  · subst slash
    decide
  by_cases short : c.toNat ∈ [8, 9, 10, 12, 13]
  · have small : c.toNat < 128 := by
      have all : ∀ n ∈ [8, 9, 10, 12, 13], n < 128 := by decide
      exact all _ short
    simp [escapedSize, shortEscape, longEscape, quote, slash, short, utf8Size_ascii small]
  · by_cases control : c.toNat < 32
    · have small : c.toNat < 128 := by omega
      simp [escapedSize, shortEscape, longEscape, quote, slash, short, control,
        utf8Size_ascii small]
    · simp [escapedSize, shortEscape, longEscape, quote, slash, short, control]

theorem textSize_eq (text : String) : textSize text = 2 + text.utf8ByteSize + escapeCost text := by
  have each : ∀ chars : List Char, (chars.map escapedSize).sum =
      utf8Size chars + (chars.countP shortEscape + 5 * chars.countP longEscape) := by
    intro chars
    induction chars with
    | nil => rfl
    | cons c rest ih =>
      rw [List.map_cons, List.sum_cons, ih, escapedSize_eq, utf8Size_cons, List.countP_cons,
        List.countP_cons]
      omega
  rw [textSize, each, utf8ByteSize_eq, escapeCost, Nat.add_assoc]

theorem length_sendLine : (sendLine id before after body).length =
    overhead id (before ++ after) + body.utf8ByteSize + escapeCost body := by
  have keys : textSize "id" = 4 ∧ textSize "method" = 8 ∧ textSize "cell_send" = 11 ∧
      textSize "params" = 8 ∧ textSize "body" = 6 := by
    decide
  obtain ⟨k₁, k₂, k₃, k₄, k₅⟩ := keys
  have number : utf8Size (Json.num id).render = _ := utf8Size_digits id
  have texts : ∀ text : String, utf8Size (Json.str text).render = textSize text := utf8Size_quoted
  have commas : ∀ fields : List (String × Json),
      (fields.map fun field => utf8Size (Json.renderField field) + 1).sum =
        (fields.map fun field => utf8Size (Json.renderField field)).sum + fields.length := by
    intro fields
    induction fields with
    | nil => rfl
    | cons field rest ih =>
      rw [List.map_cons, List.sum_cons, List.map_cons, List.sum_cons, ih, List.length_cons]
      omega
  simp only [sendLine, length_utf8, overhead, utf8Size_object, List.map_append, List.map_cons,
    List.map_nil, List.sum_append, List.sum_cons, List.sum_nil, List.length_append,
    List.length_cons, List.length_nil, utf8Size_field, number, texts, commas, textSize_eq body,
    k₁, k₂, k₃, k₄, k₅]
  omega

theorem newline_not_sendLine : newline ∉ sendLine id before after body :=
  newline_not_mem (Json.newline_not_rendered _)

/-- The request fits a frame, and is read in whatever pieces it arrives. -/
def FitsFrame (line : List UInt8) : Prop :=
  line.length ≤ maxFrameBytes ∧ ∀ chunks, Arrives (line ++ [newline]) chunks →
    FrameReader.outcome maxFrameBytes [] chunks = .ok line

theorem fitsFrame_iff {line : List UInt8} (free : newline ∉ line) :
    FitsFrame line ↔ line.length ≤ maxFrameBytes := by
  rw [FitsFrame, FrameReader.read_whole_iff free, and_self]

/-- A send fits exactly when its body, the bytes its escapes add and its other fields do. -/
theorem send_fits_iff (id : Nat) (before after : List (String × Json)) (body : String) :
    FitsFrame (sendLine id before after body) ↔
      overhead id (before ++ after) + body.utf8ByteSize + escapeCost body ≤ maxFrameBytes := by
  rw [fitsFrame_iff newline_not_sendLine, length_sendLine]

/-- A body of nothing but control characters, as long as a body may be. -/
def controlBody : String := .ofList (.replicate maxBodyBytes (Char.ofNat 1))

theorem legal_body_refused :
    ¬ ∀ id before after body, overhead id (before ++ after) ≤ 1024 → checkBody body = .ok () →
      FitsFrame (sendLine id before after body) := by
  intro always
  have size : controlBody.utf8ByteSize = maxBodyBytes := by
    rw [utf8ByteSize_eq, controlBody, String.toList_ofList, utf8Size, List.map_replicate,
      List.sum_replicate]
    decide
  have cost : escapeCost controlBody = 5 * maxBodyBytes := by
    rw [escapeCost, controlBody, String.toList_ofList, List.countP_replicate,
      List.countP_replicate]
    decide
  have legal : checkBody controlBody = .ok () := by
    rw [checkBody, size]
    rfl
  have fits := always 2 [] [("to_cell", .str "ops")] controlBody (by decide) legal
  rw [fitsFrame_iff newline_not_sendLine, length_sendLine, size, cost] at fits
  exact absurd fits (by decide)

end Requests
end Crewd
