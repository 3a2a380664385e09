import Mathlib.Data.List.Sort
import Mathlib.Data.List.Dedup
import Crewd.Acl
import Crewd.Lib.Table

/-! The ACL as its file gives it: what a parse accepts and what it holds then, the swap
of a reload, and the agreement of the two gates that guard protected cells. The `toml`
crate, which turns a text into the raw table, is a parameter. -/
namespace Crewd

section Loops
variable {ε α β : Type}

theorem forM_ok_iff {f : α → Except ε Unit} {xs : List α} :
    forM xs f = .ok () ↔ ∀ x ∈ xs, f x = .ok () := by
  induction xs with
  | nil => exact ⟨fun _ _ member => absurd member List.not_mem_nil, fun _ => rfl⟩
  | cons x rest ih =>
    rw [List.forM_cons]
    cases here : f x with
    | error e => simp [here, bind, Except.bind]
    | ok u => simp [here, bind, Except.bind, ih]

theorem mapM_ok_iff {f : α → Except ε β} {xs : List α} {ys : List β} :
    xs.mapM f = .ok ys ↔ List.Forall₂ (fun x y => f x = .ok y) xs ys := by
  induction xs generalizing ys with
  | nil => simp [pure, Except.pure, eq_comm]
  | cons x rest ih =>
    rw [List.mapM_cons, List.forall₂_cons_left_iff]
    cases here : f x with
    | error e => simp [bind, Except.bind]
    | ok y =>
      cases tail : rest.mapM f with
      | error e =>
        have none : ∀ zs, ¬ List.Forall₂ (fun x y => f x = .ok y) rest zs := by
          intro zs all
          rw [ih.mpr all] at tail
          cases tail
        simp [bind, Except.bind, none]
      | ok zs =>
        have found : ∀ zs', List.Forall₂ (fun x y => f x = .ok y) rest zs' ↔ zs' = zs := by
          intro zs'
          rw [← ih, tail, Except.ok.injEq, eq_comm]
        simp [bind, Except.bind, pure, Except.pure, found, eq_comm]

theorem mapM_succeeds_iff {f : α → Except ε β} {xs : List α} :
    (∃ ys, xs.mapM f = .ok ys) ↔ ∀ x ∈ xs, ∃ y, f x = .ok y := by
  simp only [mapM_ok_iff]
  induction xs with
  | nil => exact ⟨fun _ _ member => absurd member List.not_mem_nil, fun _ => ⟨[], .nil⟩⟩
  | cons x rest ih =>
    rw [List.forall_mem_cons, ← ih]
    constructor
    · rintro ⟨_, _ | ⟨here, tail⟩⟩
      exact ⟨⟨_, here⟩, _, tail⟩
    · rintro ⟨⟨y, here⟩, ys, tail⟩
      exact ⟨y :: ys, .cons here tail⟩

theorem named_ok_iff {x : Except ε β} {name : α} {pair : α × β} :
    (do return (name, ← x) : Except ε (α × β)) = .ok pair ↔ x = .ok pair.2 ∧ pair.1 = name := by
  obtain ⟨name', y⟩ := pair
  cases x with
  | error e => simp [bind, Except.bind]
  | ok z => simp [bind, Except.bind, pure, Except.pure, and_comm, eq_comm]

end Loops

/-- An unknown string aborts the whole reload. -/
def Capability.parse (s : String) : Except BusError Capability :=
  match s with
  | "send" => .ok .send
  | "ask" => .ok .ask
  | "reply" => .ok .reply
  | "broadcast" => .ok .broadcast
  | "read_inbox" => .ok .readInbox
  | "list_cells" => .ok .listCells
  | "attach_files" => .ok .attachFiles
  | "wake" => .ok .wake
  | "spawn" => .ok .spawn
  | "admin_registry" => .ok .adminRegistry
  | "read_audit" => .ok .readAudit
  | other => .error (.internal s!"unknown capability: {other}")

/-- A cell of the file; fields that the file leaves out have their defaults. -/
structure RawCell where
  engine : String
  capabilities : List String
  isProtected : Bool := false
  sendToProtected : List String := []
  askProtected : List String := []
  orderPreserving : Bool := false
deriving DecidableEq

/-- The parsed table, its cells in name order. -/
structure RawFile where
  cell : List (String × RawCell)
  sorted : cell.Pairwise (fun a b => a.1 < b.1)
deriving DecidableEq

/-- The capabilities of one cell, collected in declaration order. -/
def readCapabilities (name : String) :
    List String → List Capability → Except BusError (List Capability)
  | [], caps => .ok caps
  | cs :: rest, caps => do
    let c ← Capability.parse cs
    if c ∈ caps then .error (.internal s!"duplicate capability {cs} for cell {name}")
    else readCapabilities name rest (caps.orderedInsert (fun a b => a.ctorIdx ≤ b.ctorIdx) c)

/-- The strings in ascending order, each once. -/
def collect (names : List String) : List String := names.dedup.mergeSort (fun a b => a ≤ b)

def RawCell.read (name : String) (rc : RawCell) : Except BusError CellAcl := do
  let caps ← readCapabilities name rc.capabilities []
  return {
    capabilities := caps
    isProtected := rc.isProtected
    sendToProtected := collect rc.sendToProtected
    askProtected := collect rc.askProtected
    engine := rc.engine
    orderPreserving := rc.orderPreserving
  }

def readCells (raw : RawFile) : Except BusError (List (String × CellAcl)) :=
  raw.cell.mapM fun (name, rc) => do return (name, ← rc.read name)

/-- Per-target grants must reference registered cells. -/
def checkGrants (cells : List (String × CellAcl)) : Except BusError Unit :=
  forM cells fun (name, c) =>
    forM (c.sendToProtected ++ c.askProtected) fun t =>
      if t ∈ cells.map (·.1) then .ok ()
      else .error (.internal s!"cell {name} references unregistered grant target {t}")

theorem readCells_ok_iff {raw : RawFile} {cells : List (String × CellAcl)} :
    readCells raw = .ok cells ↔ List.Forall₂ (fun entry cell =>
      entry.2.read entry.1 = .ok cell.2 ∧ cell.1 = entry.1) raw.cell cells := by
  simp only [readCells, mapM_ok_iff, named_ok_iff]

theorem readCells_names {raw : RawFile} {cells : List (String × CellAcl)}
    (read : readCells raw = .ok cells) : cells.map (·.1) = raw.cell.map (·.1) := by
  have each := readCells_ok_iff.mp read
  clear read
  generalize raw.cell = entries at each
  induction each with
  | nil => rfl
  | cons here _ ih => rw [List.map_cons, List.map_cons, here.2, ih]

theorem readCells_sorted {raw : RawFile} {cells : List (String × CellAcl)}
    (read : readCells raw = .ok cells) : cells.Pairwise (fun a b => a.1 < b.1) := by
  apply List.pairwise_map.mp
  rw [readCells_names read]
  exact List.pairwise_map.mpr raw.sorted

/-- The crate's parse, each cell in turn, and the grants when all cells stand. -/
def Acl.parse (fromStr : String → Except String RawFile) (text : String) :
    Except BusError Acl :=
  match fromStr text with
  | .error e => .error (.internal s!"acl parse: {e}")
  | .ok raw =>
    match read : readCells raw with
    | .error e => .error e
    | .ok cells => do
      checkGrants cells
      return ⟨cells, readCells_sorted read⟩

structure AclHolder where
  inner : Acl
deriving DecidableEq

structure AclChangeSummary where
  cells : Nat
deriving DecidableEq

def AclHolder.new : AclHolder := ⟨Acl.empty⟩

def AclHolder.current (holder : AclHolder) : Acl := holder.inner

/-- `file` is what reading the path gives. -/
def AclHolder.reloadFromFile (fromStr : String → Except String RawFile)
    (file : Except String String) : ExceptT BusError (StateM AclHolder) AclChangeSummary := do
  let text ← match file with
    | .error e => throw (.internal s!"read acl: {e}")
    | .ok text => pure text
  let newAcl ← Acl.parse fromStr text
  let count := newAcl.cells.length
  set (AclHolder.mk newAcl)
  return ⟨count⟩

section Reading
variable {name s : String} {cap : Capability} {strings : List String}
  {caps out : List Capability} {rc : RawCell} {c : CellAcl} {raw : RawFile}
  {cells : List (String × CellAcl)}

theorem Capability.parse_ok_iff : Capability.parse s = .ok cap ↔ cap.asStr = s := by
  constructor
  · intro parsed
    unfold Capability.parse at parsed
    split at parsed <;> cases parsed <;> rfl
  · rintro rfl
    cases cap <;> rfl

theorem Capability.asStr_inj {a b : Capability} (same : a.asStr = b.asStr) : a = b :=
  Except.ok.inj ((parse_ok_iff.mpr same).symm.trans (parse_ok_iff.mpr rfl))

/-- The loop adds the capability that each string stands for, none of them twice. -/
theorem readCapabilities_ok_iff :
    (∃ out, readCapabilities name strings caps = .ok out) ↔
      strings.Nodup ∧ ∀ s ∈ strings, ∃ cap : Capability, cap.asStr = s ∧ cap ∉ caps := by
  induction strings generalizing caps with
  | nil => simp [readCapabilities]
  | cons cs rest ih =>
    cases parsed : Capability.parse cs with
    | error e =>
      have unknown : ¬ ∃ cap : Capability, cap.asStr = cs ∧ cap ∉ caps := by
        rintro ⟨cap, same, _⟩
        rw [Capability.parse_ok_iff.mpr same] at parsed
        cases parsed
      simp [readCapabilities, parsed, bind, Except.bind, unknown]
    | ok c =>
      obtain rfl := Capability.parse_ok_iff.mp parsed
      by_cases held : c ∈ caps
      · have repeated : ¬ ∃ cap : Capability, cap.asStr = c.asStr ∧ cap ∉ caps := by
          rintro ⟨cap, same, absent⟩
          exact absent (Capability.asStr_inj same ▸ held)
        simp [readCapabilities, parsed, bind, Except.bind, held, repeated]
      · have fresh : ∃ cap : Capability, cap.asStr = c.asStr ∧ cap ∉ caps := ⟨c, rfl, held⟩
        have others : (∀ s ∈ rest, ∃ cap : Capability, cap.asStr = s ∧
            cap ∉ caps.orderedInsert (fun a b => a.ctorIdx ≤ b.ctorIdx) c) ↔
            c.asStr ∉ rest ∧ ∀ s ∈ rest, ∃ cap : Capability, cap.asStr = s ∧ cap ∉ caps := by
          constructor
          · intro all
            refine ⟨fun inside => ?_, fun s member => ?_⟩
            · obtain ⟨cap, same, absent⟩ := all _ inside
              exact absent ((List.mem_orderedInsert _).mpr (.inl (Capability.asStr_inj same)))
            · obtain ⟨cap, same, absent⟩ := all s member
              exact ⟨cap, same, fun inside => absent ((List.mem_orderedInsert _).mpr (.inr inside))⟩
          · rintro ⟨absent, all⟩ s member
            obtain ⟨cap, rfl, new⟩ := all s member
            refine ⟨cap, rfl, fun inside => ?_⟩
            rcases (List.mem_orderedInsert _).mp inside with rfl | inside
            · exact absent member
            · exact new inside
        simp only [readCapabilities, parsed, bind, Except.bind, held, if_false, ih, others,
          List.nodup_cons, List.forall_mem_cons, fresh, true_and]
        exact ⟨fun ⟨once, absent, all⟩ => ⟨⟨absent, once⟩, all⟩,
          fun ⟨⟨absent, once⟩, all⟩ => ⟨once, absent, all⟩⟩

theorem readCapabilities_holds (read : readCapabilities name strings caps = .ok out) :
    (caps.Nodup → out.Nodup) ∧ ∀ cap, cap ∈ out ↔ cap ∈ caps ∨ cap.asStr ∈ strings := by
  induction strings generalizing caps with
  | nil =>
    cases read
    simp
  | cons cs rest ih =>
    cases parsed : Capability.parse cs with
    | error e =>
      simp only [readCapabilities, parsed, bind, Except.bind] at read
      cases read
    | ok c =>
      obtain rfl := Capability.parse_ok_iff.mp parsed
      by_cases held : c ∈ caps
      · simp only [readCapabilities, parsed, bind, Except.bind, held, if_true] at read
        cases read
      · simp only [readCapabilities, parsed, bind, Except.bind, held, if_false] at read
        obtain ⟨once, holds⟩ := ih read
        constructor
        · intro distinct
          exact once ((List.perm_orderedInsert _ c caps).nodup_iff.mpr
            (List.nodup_cons.mpr ⟨held, distinct⟩))
        · intro cap
          have same : cap.asStr = c.asStr ↔ cap = c :=
            ⟨Capability.asStr_inj, fun equal => equal ▸ rfl⟩
          rw [holds, List.mem_orderedInsert, List.mem_cons, same]
          exact ⟨fun h => by rcases h with (h | h) | h <;> simp [h],
            fun h => by rcases h with h | h | h <;> simp [h]⟩

theorem mem_collect : s ∈ collect strings ↔ s ∈ strings := by
  simp [collect]

end Reading

/-- The cell that the parse makes of a raw one: its capabilities and grants are those
the raw cell lists. -/
structure CellAcl.Holds (c : CellAcl) (rc : RawCell) : Prop where
  capabilities : c.capabilities.Nodup ∧ ∀ cap, cap ∈ c.capabilities ↔ cap.asStr ∈ rc.capabilities
  isProtected : c.isProtected = rc.isProtected
  sendToProtected : c.sendToProtected.Nodup ∧
    ∀ t, t ∈ c.sendToProtected ↔ t ∈ rc.sendToProtected
  askProtected : c.askProtected.Nodup ∧ ∀ t, t ∈ c.askProtected ↔ t ∈ rc.askProtected
  engine : c.engine = rc.engine
  orderPreserving : c.orderPreserving = rc.orderPreserving

def CellAcl.grants (c : CellAcl) : List String := c.sendToProtected ++ c.askProtected

def RawCell.grants (rc : RawCell) : List String := rc.sendToProtected ++ rc.askProtected

/-- Every capability string is known, none repeats within a cell, and every grant
target is a registered cell. -/
structure RawFile.Valid (raw : RawFile) : Prop where
  known : ∀ entry ∈ raw.cell, ∀ s ∈ entry.2.capabilities, ∃ cap : Capability, cap.asStr = s
  once : ∀ entry ∈ raw.cell, entry.2.capabilities.Nodup
  registered : ∀ entry ∈ raw.cell, ∀ t ∈ entry.2.grants, t ∈ raw.cell.map (·.1)

section Loading
variable {name : String} {rc : RawCell} {c : CellAcl} {raw : RawFile}
  {cells : List (String × CellAcl)} {fromStr : String → Except String RawFile} {text : String}

theorem RawCell.read_succeeds_iff (name : String) : (∃ c, rc.read name = .ok c) ↔
    (∀ s ∈ rc.capabilities, ∃ cap : Capability, cap.asStr = s) ∧ rc.capabilities.Nodup := by
  have loop : (∃ out, readCapabilities name rc.capabilities [] = .ok out) ↔ _ :=
    readCapabilities_ok_iff
  simp only [List.not_mem_nil, not_false_eq_true, and_true] at loop
  rw [and_comm, ← loop]
  cases caps : readCapabilities name rc.capabilities [] with
  | error e => simp [RawCell.read, caps, bind, Except.bind]
  | ok out => simp [RawCell.read, caps, bind, Except.bind, pure, Except.pure]

theorem RawCell.read_holds (read : rc.read name = .ok c) : c.Holds rc := by
  cases caps : readCapabilities name rc.capabilities [] with
  | error e =>
    simp only [RawCell.read, caps, bind, Except.bind] at read
    cases read
  | ok out =>
    simp only [RawCell.read, caps, bind, Except.bind, pure, Except.pure] at read
    cases read
    obtain ⟨once, holds⟩ := readCapabilities_holds caps
    refine ⟨⟨once .nil, fun cap => ?_⟩, rfl, ⟨?_, fun t => mem_collect⟩,
      ⟨?_, fun t => mem_collect⟩, rfl, rfl⟩
    · rw [holds, List.mem_nil_iff, false_or]
    · exact List.nodup_mergeSort.mpr (List.nodup_dedup _)
    · exact List.nodup_mergeSort.mpr (List.nodup_dedup _)

theorem CellAcl.Holds.grants (holds : c.Holds rc) (t : String) : t ∈ c.grants ↔ t ∈ rc.grants := by
  rw [CellAcl.grants, RawCell.grants, List.mem_append, List.mem_append, holds.sendToProtected.2,
    holds.askProtected.2]

theorem checkGrants_ok_iff : checkGrants cells = .ok () ↔
    ∀ cell ∈ cells, ∀ t ∈ cell.2.grants, t ∈ cells.map (·.1) := by
  have one : ∀ (name t : String), (if t ∈ cells.map (·.1) then Except.ok ()
      else .error (BusError.internal s!"cell {name} references unregistered grant target {t}")) =
        .ok () ↔ t ∈ cells.map (·.1) := by
    intro name t
    split <;> simp_all
  rw [checkGrants, forM_ok_iff]
  refine forall₂_congr fun cell _ => ?_
  rw [forM_ok_iff]
  exact forall₂_congr fun t _ => one cell.1 t

/-- The grants of the cells made reach the same names as those of the raw ones. -/
theorem granted_iff {entries : List (String × RawCell)} {p : String → Prop}
    (each : List.Forall₂ (fun entry cell => entry.2.read entry.1 = .ok cell.2 ∧
      cell.1 = entry.1) entries cells) :
    (∀ cell ∈ cells, ∀ t ∈ cell.2.grants, p t) ↔ ∀ entry ∈ entries, ∀ t ∈ entry.2.grants, p t := by
  induction each with
  | nil => simp
  | cons here _ ih =>
    rw [List.forall_mem_cons, List.forall_mem_cons, ih]
    exact and_congr_left' (forall_congr' fun t =>
      imp_congr_left ((RawCell.read_holds here.1).grants t))

theorem Acl.parse_ok_iff {acl : Acl} (parsed : fromStr text = .ok raw) :
    Acl.parse fromStr text = .ok acl ↔
      readCells raw = .ok acl.cells ∧ checkGrants acl.cells = .ok () := by
  unfold Acl.parse
  simp only [parsed]
  split
  · next e failed => simp [failed]
  · next cells read =>
    have made : readCells raw = .ok acl.cells ↔ cells = acl.cells := by rw [read, Except.ok.injEq]
    rw [made]
    cases grants : checkGrants cells with
    | error e =>
      have differ : ∀ other, cells = other → checkGrants other ≠ .ok () := by
        rintro _ rfl
        simp [grants]
      simp only [bind, Except.bind, reduceCtorEq, false_iff, not_and]
      exact differ acl.cells
    | ok u =>
      simp only [bind, Except.bind, pure, Except.pure, Except.ok.injEq]
      constructor
      · rintro rfl
        exact ⟨rfl, grants⟩
      · rintro ⟨same, _⟩
        cases acl
        cases same
        rfl

theorem Acl.parse_succeeds_iff (parsed : fromStr text = .ok raw) :
    (∃ acl, Acl.parse fromStr text = .ok acl) ↔ raw.Valid := by
  have reads : (∃ cells, readCells raw = .ok cells) ↔ ∀ entry ∈ raw.cell,
      (∀ s ∈ entry.2.capabilities, ∃ cap : Capability, cap.asStr = s) ∧
        entry.2.capabilities.Nodup := by
    simp only [readCells, mapM_succeeds_iff, named_ok_iff]
    refine forall₂_congr fun entry _ => ?_
    rw [← RawCell.read_succeeds_iff entry.1]
    exact ⟨fun ⟨pair, read, _⟩ => ⟨pair.2, read⟩, fun ⟨c, read⟩ => ⟨(entry.1, c), read, rfl⟩⟩
  constructor
  · rintro ⟨acl, done⟩
    obtain ⟨read, grants⟩ := (Acl.parse_ok_iff parsed).mp done
    have cells := reads.mp ⟨_, read⟩
    rw [checkGrants_ok_iff, readCells_names read, granted_iff (readCells_ok_iff.mp read)] at grants
    exact ⟨fun entry member => (cells entry member).1, fun entry member => (cells entry member).2,
      grants⟩
  · intro valid
    obtain ⟨cells, read⟩ := reads.mpr fun entry member =>
      ⟨valid.known entry member, valid.once entry member⟩
    refine ⟨⟨cells, readCells_sorted read⟩, (Acl.parse_ok_iff parsed).mpr ⟨read, ?_⟩⟩
    rw [checkGrants_ok_iff, readCells_names read, granted_iff (readCells_ok_iff.mp read)]
    exact valid.registered

theorem Acl.parse_holds {acl : Acl} (parsed : fromStr text = .ok raw)
    (done : Acl.parse fromStr text = .ok acl) :
    List.Forall₂ (fun entry cell => cell.1 = entry.1 ∧ cell.2.Holds entry.2) raw.cell acl.cells := by
  have each := readCells_ok_iff.mp ((Acl.parse_ok_iff parsed).mp done).1
  exact each.imp fun _ _ ⟨read, named⟩ => ⟨named, RawCell.read_holds read⟩

/-- A reload either swaps in the ACL it parsed or leaves the holder as it was. -/
theorem reloadFromFile_cases (file : Except String String) (holder : AclHolder) :
    (∃ e, (AclHolder.reloadFromFile fromStr file).run.run holder = (.error e, holder)) ∨
    ∃ text acl, file = .ok text ∧ Acl.parse fromStr text = .ok acl ∧
      (AclHolder.reloadFromFile fromStr file).run.run holder =
        (.ok ⟨acl.cells.length⟩, ⟨acl⟩) := by
  cases file with
  | error e => exact .inl ⟨_, rfl⟩
  | ok text =>
    cases parsed : Acl.parse fromStr text with
    | error e =>
      refine .inl ⟨e, ?_⟩
      simp only [AclHolder.reloadFromFile, pure_bind, parsed]
      rfl
    | ok acl =>
      refine .inr ⟨text, acl, rfl, parsed, ?_⟩
      simp only [AclHolder.reloadFromFile, pure_bind, parsed]
      rfl

end Loading

section Gates
variable {acl : Acl} {sender cell : String} {c own : CellAcl}

/-- What decides a send from a registered sender to a registered cell. -/
theorem checkReach_send_iff (registered : acl.get sender = some own)
    (known : acl.get cell = some c) : acl.checkReach sender cell .send = .ok () ↔
      (c.isProtected = true → cell ∈ own.sendToProtected) := by
  simp only [Acl.checkReach, registered, known, Option.map_some, Option.getD_some]
  cases c.isProtected with
  | false => simp
  | true => by_cases granted : cell ∈ own.sendToProtected <;> simp [granted]

theorem recipientsForBroadcast_perm (registered : acl.get sender = some own) :
    ((acl.recipientsForBroadcast sender).1 ++ (acl.recipientsForBroadcast sender).2).Perm
      ((acl.cells.map (·.1)).filter (· ≠ sender)) := by
  rw [Acl.recipientsForBroadcast_of_registered registered, List.filter_map, ← List.map_append]
  exact (List.filter_append_perm _ _).map _

theorem mem_recipients_iff (registered : acl.get sender = some own)
    (known : acl.get cell = some c) (apart : cell ≠ sender) :
    cell ∈ (acl.recipientsForBroadcast sender).1 ↔ acl.checkReach sender cell .send = .ok () := by
  have gate : (if c.isProtected then own.sendToProtected.contains cell else true) = true ↔
      acl.checkReach sender cell .send = .ok () := by
    rw [checkReach_send_iff registered known]
    cases c.isProtected <;> simp
  rw [Acl.recipientsForBroadcast_of_registered registered, ← gate]
  constructor
  · intro included
    obtain ⟨⟨name, c'⟩, kept, rfl⟩ := List.mem_map.mp included
    obtain ⟨peer, open'⟩ := List.mem_filter.mp kept
    have same := Acl.get_eq_some_iff.mpr (List.mem_filter.mp peer).1
    rw [known] at same
    cases same
    exact open'
  · intro open'
    apply List.mem_map.mpr
    refine ⟨(cell, c), List.mem_filter.mpr ⟨List.mem_filter.mpr ⟨?_, ?_⟩, open'⟩, rfl⟩
    · exact Acl.get_eq_some_iff.mp known
    · simpa using apart

end Gates

/-- The fan-out of a registered sender splits all other registered cells, each listed
once, and includes those that a unicast send may reach. -/
theorem broadcast_gate_is_unicast_gate (acl : Acl) {sender : String}
    (registered : acl.isRegistered sender = true) :
    ((acl.recipientsForBroadcast sender).1 ++ (acl.recipientsForBroadcast sender).2).Perm
      ((acl.cells.map (·.1)).filter (· ≠ sender)) ∧
    ((acl.recipientsForBroadcast sender).1 ++ (acl.recipientsForBroadcast sender).2).Nodup ∧
    ∀ cell, acl.isRegistered cell = true → cell ≠ sender →
      (cell ∈ (acl.recipientsForBroadcast sender).1 ↔
        acl.checkReach sender cell .send = .ok ()) := by
  obtain ⟨own, found⟩ := Option.isSome_iff_exists.mp registered
  have split := recipientsForBroadcast_perm found
  refine ⟨split, split.nodup_iff.mpr (acl.names_nodup.filter _), ?_⟩
  intro cell known apart
  obtain ⟨c, held⟩ := Option.isSome_iff_exists.mp known
  exact mem_recipients_iff found held apart

/-- Two cells, the first of them protected and without a grant to the second. -/
def guardedAcl : Acl where
  cells := [("audit", ⟨[.send], false, [], [], "codex", false⟩),
    ("coordinator", ⟨[.send], true, [], [], "claude", false⟩)]
  sorted := by decide

theorem sample_broadcast_denied :
    "coordinator" ∉ (guardedAcl.recipientsForBroadcast "audit").1 := by
  intro included
  have registered : guardedAcl.isRegistered "audit" = true := by decide
  have gate := (broadcast_gate_is_unicast_gate guardedAcl registered).2.2 "coordinator"
    (by decide) (by decide)
  exact absurd (gate.mp included) (by decide)

/-- A load of a parsed table succeeds exactly when the table is valid, holds then what
the table lists, and a reload that fails leaves the current ACL as it was. -/
theorem acl_load_exact_and_atomic (fromStr : String → Except String RawFile) :
    (∀ text raw, fromStr text = .ok raw →
      ((∃ acl, Acl.parse fromStr text = .ok acl) ↔ raw.Valid) ∧
      ∀ acl, Acl.parse fromStr text = .ok acl → List.Forall₂
        (fun entry cell => cell.1 = entry.1 ∧ cell.2.Holds entry.2) raw.cell acl.cells) ∧
    ∀ file holder, match (AclHolder.reloadFromFile fromStr file).run.run holder with
      | (.error _, after) => after.current = holder.current
      | (.ok _, after) => ∃ text, file = .ok text ∧ Acl.parse fromStr text = .ok after.current := by
  constructor
  · intro text raw parsed
    exact ⟨Acl.parse_succeeds_iff parsed, fun acl done => Acl.parse_holds parsed done⟩
  · intro file holder
    rcases reloadFromFile_cases file holder with ⟨e, left⟩ | ⟨text, acl, read, parsed, swapped⟩
    · rw [left]
    · rw [swapped]
      exact ⟨text, read, parsed⟩

/-- The file of one cell that may reach a protected one. -/
def sampleFile : RawFile where
  cell := [
    ("coordinator", { engine := "claude", capabilities := ["send", "broadcast"], isProtected := true }),
    ("senior", { engine := "codex", capabilities := ["send"], sendToProtected := ["coordinator"] })]
  sorted := by decide

theorem sample_file_loads :
    ∃ acl, Acl.parse (fun _ => .ok sampleFile) "" = .ok acl ∧ acl.cells.length = 2 := by
  have valid : sampleFile.Valid := by
    refine ⟨?_, by decide, by decide⟩
    intro entry member s inside
    have known : ∀ entry ∈ sampleFile.cell, ∀ s ∈ entry.2.capabilities,
        s = Capability.send.asStr ∨ s = Capability.broadcast.asStr := by decide
    rcases known entry member s inside with rfl | rfl
    · exact ⟨.send, rfl⟩
    · exact ⟨.broadcast, rfl⟩
  obtain ⟨loads, holds⟩ := (acl_load_exact_and_atomic fun _ => .ok sampleFile).1 "" sampleFile rfl
  obtain ⟨acl, parsed⟩ := loads.mpr valid
  exact ⟨acl, parsed, (holds acl parsed).length_eq.symm⟩

end Crewd
