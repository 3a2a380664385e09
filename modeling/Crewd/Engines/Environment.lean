import Crewd.Engines.Claude
import Crewd.Chain.Verified
import Crewd.Lib.Table

/-! The environment of a claude child. It is built from a list of names, and a named profile
puts its own endpoint and key over what the daemon has; the key is looked up in a file of
assignments as shells read them. -/
namespace Crewd.Engines

def envAllowlist : List String := ["ANTHROPIC_AUTH_TOKEN", "ANTHROPIC_BASE_URL", "ANTHROPIC_MODEL",
  "ANTHROPIC_SMALL_FAST_MODEL", "CLAUDE_CODE_AUTO_COMPACT_WINDOW", "HOME", "PATH", "NODE_OPTIONS",
  "TMPDIR", "LANG", "TERM"]

/-- What the daemon process finds: its variables, files, and the full path of a path. -/
structure EngineHost where
  var : String → Option String
  readToString : String → Except String (List Char)
  canonicalize : String → Option String

section Keys

def stripExport (l : List Char) : List Char :=
  if ['e', 'x', 'p', 'o', 'r', 't', ' '].isPrefixOf l then l.drop 7 else l

def splitOnce (c : Char) (l : List Char) : Option (List Char × List Char) :=
  if c ∈ l then some (l.takeWhile (· ≠ c), (l.dropWhile (· ≠ c)).drop 1) else none

/-- The apostrophe. -/
def singleQuote : Char := Char.ofNat 39

def trimMatches (c : Char) (l : List Char) : List Char :=
  ((l.dropWhile (· = c)).reverse.dropWhile (· = c)).reverse

/-- What a line assigns to the key, unless it is empty. -/
def keyIn (wanted : List Char) (raw : List Char) : Option String :=
  match splitOnce '=' (stripExport (trim raw)) with
  | none => none
  | some (k, v) =>
    if trim k = wanted then
      let val := trimMatches singleQuote (trimMatches '"' (trim v))
      if val.isEmpty then none else some (.ofList val)
    else none

def parseKeyFile (host : EngineHost) (path wanted : String) : Except BusError String :=
  match host.readToString path with
  | .error e => .error (.engineDown s!"keys file unreadable: {safePrefix e}")
  | .ok content =>
    match (linesFrom [] content).findSome? (keyIn wanted.toList) with
    | some val => .ok val
    | none => .error (.engineDown s!"keys file missing entry: {wanted}")

end Keys

section Commands

/-- `HashMap::insert`. -/
def setVar (env : List (String × String)) (k v : String) : List (String × String) :=
  Table.replaceInto (fun entry => entry.1 = k) (k, v) env

def getVar (env : List (String × String)) (k : String) : Option String :=
  (env.find? fun entry => entry.1 = k).map (·.2)

def inherit (host : EngineHost) (env : List (String × String)) (k : String) :
    List (String × String) :=
  match host.var k with
  | none => env
  | some v => if v.isEmpty then env else setVar env k v

def buildEnv (cfg : EngineSpawnCfg) (host : EngineHost) :
    Except BusError (List (String × String)) :=
  let env := envAllowlist.foldl (inherit host) []
  match cfg.profile with
  | none | some "max" => .ok env
  | some name =>
    match cfg.profileDef with
    | none => .error (.engineDown s!"unknown claude profile: {safePrefix name}")
    | some profile =>
      match cfg.keysEnvPath with
      | none => .error (.engineDown s!"profile {debugText name} requires keys_env_path")
      | some path =>
        match parseKeyFile host path profile.apiKeyEnv with
        | .error e => .error e
        | .ok key => .ok (setVar (setVar (setVar env "ANTHROPIC_BASE_URL" profile.baseUrl)
            "ANTHROPIC_AUTH_TOKEN" key) "ANTHROPIC_MODEL" profile.model)

namespace ClaudeAdapter

def command (cfg : EngineSpawnCfg) (host : EngineHost) : Except BusError Command :=
  match buildEnv cfg host with
  | .error e => .error e
  | .ok env =>
    if cfg.spawnDirect then
      match cfg.binOverride with
      | none => .error (.internal "spawn_direct without bin_override")
      | some bin => .ok ⟨bin, cfg.shimArgs, cfg.cwd, some env⟩
    else
      let shimPath := cfg.binOverride.getD "shim/claude-shim.mjs"
      .ok ⟨"node", (host.canonicalize shimPath).getD shimPath :: cfg.shimArgs, cfg.cwd, some env⟩

def new (cfg : EngineSpawnCfg) (host : EngineHost) (start : Command → Except String Unit)
    (first : Except String (List Char)) : Except BusError ClaudeAdapter :=
  match command cfg host with
  | .error e => .error e
  | .ok cmd =>
    match LineChild.spawn cmd true none "node" start first with
    | .error e => .error e
    | .ok child => .ok ⟨child, none⟩

end ClaudeAdapter

end Commands

section Variables
variable {env : List (String × String)} {host : EngineHost}

theorem getVar_setVar (env : List (String × String)) (k v other : String) :
    getVar (setVar env k v) other = if k = other then some v else getVar env other := by
  induction env with
  | nil => by_cases same : k = other <;> simp [getVar, setVar, Table.replaceInto, same]
  | cons entry rest ih =>
    simp only [getVar, setVar, Table.replaceInto] at ih ⊢
    by_cases replaced : entry.1 = k
    · by_cases same : k = other
      · simpa [replaced, same] using ih
      · simpa [replaced, same] using ih
    · by_cases found : entry.1 = other
      · have differ : k ≠ other := fun same => replaced (found.trans same.symm)
        simp [found, differ.symm, differ]
      · simpa [replaced, found] using ih

theorem nodup_setVar (distinct : (env.map Prod.fst).Nodup) (k v : String) :
    ((setVar env k v).map Prod.fst).Nodup := by
  rw [setVar, Table.replaceInto, List.map_append]
  apply List.Nodup.append
  · exact distinct.sublist (List.filter_sublist.map _)
  · exact List.nodup_singleton _
  · intro name kept last
    obtain ⟨entry, member, rfl⟩ := List.mem_map.mp kept
    have other := (List.mem_filter.mp member).2
    simp_all

/-- The variable as it is inherited: an empty one is not. -/
def inherited (host : EngineHost) (k : String) : Option String :=
  (host.var k).filter fun v => !v.isEmpty

theorem getVar_inherit (env : List (String × String)) (k other : String) :
    getVar (inherit host env k) other =
      if k = other then (inherited host k).or (getVar env other) else getVar env other := by
  unfold inherit inherited
  cases host.var k with
  | none => simp
  | some v =>
    cases empty : v.isEmpty with
    | true => simp [Option.filter, empty]
    | false => simp [Option.filter, empty, getVar_setVar]

theorem getVar_inherits (names : List String) (env : List (String × String)) (other : String) :
    getVar (names.foldl (inherit host) env) other =
      if other ∈ names then (inherited host other).or (getVar env other) else getVar env other := by
  induction names generalizing env with
  | nil => simp
  | cons k rest ih =>
    rw [List.foldl_cons, ih, getVar_inherit]
    by_cases same : k = other
    · subst same
      cases inherited host k <;> simp
    · simp [same, Ne.symm same]

theorem nodup_inherits (names : List String) (distinct : (env.map Prod.fst).Nodup) :
    ((names.foldl (inherit host) env).map Prod.fst).Nodup := by
  induction names generalizing env with
  | nil => exact distinct
  | cons k rest ih =>
    apply ih
    unfold inherit
    split
    · exact distinct
    · split
      · exact distinct
      · exact nodup_setVar distinct _ _

end Variables

section Results
variable {cfg : EngineSpawnCfg} {host : EngineHost} {cmd : Command}

/-- What a profile puts over the variables of the daemon. -/
inductive Routed (cfg : EngineSpawnCfg) (host : EngineHost) : List (String × String) → Prop where
  | plain (default : cfg.profile = none ∨ cfg.profile = some "max") : Routed cfg host []
  | named {name path key : String} {profile : ProfileDef} (named : cfg.profile = some name)
      (declared : cfg.profileDef = some profile) (keys : cfg.keysEnvPath = some path)
      (found : parseKeyFile host path profile.apiKeyEnv = .ok key) : Routed cfg host
        [("ANTHROPIC_BASE_URL", profile.baseUrl), ("ANTHROPIC_AUTH_TOKEN", key),
          ("ANTHROPIC_MODEL", profile.model)]

theorem buildEnv_routed {env : List (String × String)} (built : buildEnv cfg host = .ok env) :
    ∃ overlay, Routed cfg host overlay ∧ (env.map Prod.fst).Nodup ∧
      ∀ k, getVar env k =
        (getVar overlay k).or (if k ∈ envAllowlist then inherited host k else none) := by
  have plain : ∀ k, getVar (envAllowlist.foldl (inherit host) []) k =
      if k ∈ envAllowlist then inherited host k else none := by
    intro k
    rw [getVar_inherits]
    simp [getVar]
  have distinct : ((envAllowlist.foldl (inherit host) []).map Prod.fst).Nodup :=
    nodup_inherits envAllowlist List.nodup_nil
  unfold buildEnv at built
  split at built
  · next default =>
    cases built
    exact ⟨[], .plain (.inl default), distinct, plain⟩
  · next default =>
    cases built
    exact ⟨[], .plain (.inr default), distinct, plain⟩
  · next name _ named =>
    split at built
    · cases built
    next profile declared =>
    split at built
    · cases built
    next path keys =>
    split at built
    · cases built
    next key found =>
    cases built
    refine ⟨_, .named named declared keys found, ?_, ?_⟩
    · exact nodup_setVar (nodup_setVar (nodup_setVar distinct _ _) _ _) _ _
    · intro k
      rw [getVar_setVar, getVar_setVar, getVar_setVar, plain]
      by_cases url : "ANTHROPIC_BASE_URL" = k
      · subst url
        simp [getVar]
      · by_cases token : "ANTHROPIC_AUTH_TOKEN" = k
        · subst token
          simp [getVar]
        · by_cases model : "ANTHROPIC_MODEL" = k
          · subst model
            simp [getVar]
          · simp [getVar, url, token, model]

/-- A claude child has the variables of the allowlist that are set, each once, and no other;
a named profile gives its endpoint, key and model instead of those of the daemon. -/
theorem child_env_exact (built : ClaudeAdapter.command cfg host = .ok cmd) :
    ∃ env overlay, cmd.env = some env ∧ Routed cfg host overlay ∧ (env.map Prod.fst).Nodup ∧
      ∀ k, getVar env k =
        (getVar overlay k).or (if k ∈ envAllowlist then inherited host k else none) := by
  unfold ClaudeAdapter.command at built
  split at built
  · cases built
  · next env whole =>
    obtain ⟨overlay, routed, distinct, values⟩ := buildEnv_routed whole
    refine ⟨env, overlay, ?_, routed, distinct, values⟩
    split at built
    · split at built
      · cases built
      · cases built
        rfl
    · cases built
      rfl

def maxCfg : EngineSpawnCfg :=
  ⟨"/work", none, some "max", 1800, some "/bin/engine", true, none, none, []⟩

/-- The variables of a daemon that has a token of its own and an empty terminal. -/
def tokenHost : EngineHost where
  var k := if k = "ANTHROPIC_AUTH_TOKEN" then some "own" else if k = "TERM" then some "" else none
  readToString _ := .error "No such file"
  canonicalize _ := none

theorem max_child_env : ∃ env overlay, Routed maxCfg tokenHost overlay ∧ (env.map Prod.fst).Nodup ∧
    env = [("ANTHROPIC_AUTH_TOKEN", "own")] ∧ ∀ k, getVar env k =
      (getVar overlay k).or (if k ∈ envAllowlist then inherited tokenHost k else none) := by
  have built : ClaudeAdapter.command maxCfg tokenHost =
      .ok ⟨"/bin/engine", [], "/work", some [("ANTHROPIC_AUTH_TOKEN", "own")]⟩ := rfl
  obtain ⟨env, overlay, same, routed, distinct, values⟩ := child_env_exact built
  exact ⟨env, overlay, routed, distinct, (Option.some.inj same).symm, values⟩

end Results

section KeyFiles
variable {c : Char} {l : List Char}

/-- How a value is written. -/
inductive Quote where
  | bare
  | single
  | double
deriving DecidableEq

def Quote.around (value : List Char) : Quote → List Char
  | bare => value
  | single => singleQuote :: value ++ [singleQuote]
  | double => '"' :: value ++ ['"']

/-- An assignment of a key file. -/
structure KeyEntry where
  exported : Bool
  key : List Char
  quote : Quote
  value : List Char

def KeyEntry.line (e : KeyEntry) : List Char :=
  (if e.exported then ['e', 'x', 'p', 'o', 'r', 't', ' '] else []) ++
    e.key ++ '=' :: e.quote.around e.value

/-- The first and the last character are of a kind. -/
def Edges (solid : Char → Prop) (l : List Char) : Prop :=
  (∀ c ∈ l.head?, solid c) ∧ ∀ c ∈ l.getLast?, solid c

instance (solid : Char → Prop) [DecidablePred solid] (l : List Char) : Decidable (Edges solid l) :=
  inferInstanceAs (Decidable (_ ∧ _))

/-- A key is a word, and a value has no quotes at its edges; in quotes it may have blanks. -/
structure KeyEntry.Plain (e : KeyEntry) : Prop where
  word : ∀ c ∈ e.key, c ≠ '=' ∧ whiteSpace c = false
  unbroken : '\n' ∉ e.value
  unquoted : Edges (fun c => c ≠ '"' ∧ c ≠ singleQuote) e.value
  unspaced : e.quote = .bare → Edges (fun c => whiteSpace c = false) e.value

theorem edges_around {solid : Char → Prop} (here : solid c) (l : List Char) :
    Edges solid (c :: l ++ [c]) := by
  constructor
  · rintro d ⟨⟩
    exact here
  · intro d last
    rw [List.getLast?_append, List.getLast?_singleton] at last
    cases last
    exact here

theorem dropWhile_head {p : Char → Bool} (solid : ∀ c ∈ l.head?, p c = false) :
    l.dropWhile p = l := by
  cases l with
  | nil => rfl
  | cons c rest => exact List.dropWhile_cons_of_neg (by simp [solid c rfl])

/-- What is solid at its edges is not trimmed. -/
theorem trimmed_edges {p : Char → Bool} (solid : Edges (fun c => p c = false) l) :
    ((l.dropWhile p).reverse.dropWhile p).reverse = l := by
  rw [dropWhile_head solid.1, dropWhile_head, List.reverse_reverse]
  intro c last
  rw [List.head?_reverse] at last
  exact solid.2 c last

theorem trim_edges (solid : Edges (fun c => whiteSpace c = false) l) : trim l = l :=
  trimmed_edges solid

theorem trimMatches_edges (solid : Edges (fun d => d ≠ c) l) : trimMatches c l = l :=
  trimmed_edges ⟨fun d first => by simpa using solid.1 d first,
    fun d last => by simpa using solid.2 d last⟩

/-- Quotes around a text that has none at its edges are taken off. -/
theorem trimMatches_around (solid : Edges (fun d => d ≠ c) l) :
    trimMatches c (c :: l ++ [c]) = l := by
  have opened : (c :: l ++ [c]).dropWhile (fun d => d = c) =
      if l = [] then [] else l ++ [c] := by
    cases l with
    | nil => simp
    | cons d rest => simp [solid.1 d rfl]
  rw [trimMatches, opened]
  split
  · next none =>
    rw [none]
    rfl
  · rw [List.reverse_append, List.reverse_singleton, List.singleton_append,
      List.dropWhile_cons_of_pos (by simp), dropWhile_head, List.reverse_reverse]
    intro d last
    rw [List.head?_reverse] at last
    simpa using solid.2 d last

theorem splitOnce_append {before after : List Char} (free : c ∉ before) :
    splitOnce c (before ++ c :: after) = some (before, after) := by
  have taken : ∀ {before : List Char}, c ∉ before →
      (before ++ c :: after).takeWhile (fun d => d ≠ c) = before ∧
        (before ++ c :: after).dropWhile (fun d => d ≠ c) = c :: after := by
    intro before free
    induction before with
    | nil => simp
    | cons d rest ih =>
      obtain ⟨other, later⟩ := List.ne_and_not_mem_of_not_mem_cons free
      simpa [other.symm] using ih later
  rw [splitOnce, if_pos (by simp), (taken free).1, (taken free).2]
  rfl

variable {e : KeyEntry}

theorem KeyEntry.Plain.shown (plain : e.Plain) :
    Edges (fun c => whiteSpace c = false) (e.quote.around e.value) := by
  cases style : e.quote with
  | bare => exact plain.unspaced style
  | single => exact edges_around (by decide) e.value
  | double => exact edges_around (by decide) e.value

theorem KeyEntry.Plain.line (plain : e.Plain) :
    Edges (fun c => whiteSpace c = false) e.line := by
  constructor
  · unfold KeyEntry.line
    split
    · rintro c ⟨⟩
      decide
    · cases opens : e.key with
      | nil =>
        rintro c ⟨⟩
        decide
      | cons first rest =>
        rintro c ⟨⟩
        exact (plain.word first (opens ▸ List.mem_cons_self)).2
  · intro c last
    rw [KeyEntry.line, List.getLast?_append, List.getLast?_cons] at last
    cases ends : (e.quote.around e.value).getLast? with
    | none =>
      simp [ends] at last
      exact last ▸ by decide
    | some d =>
      simp [ends] at last
      exact last ▸ plain.shown.2 d ends

theorem stripExport_line (plain : e.Plain) :
    stripExport e.line = e.key ++ '=' :: e.quote.around e.value := by
  unfold stripExport KeyEntry.line
  cases e.exported with
  | true => rfl
  | false =>
    simp only [Bool.false_eq_true, if_false, List.nil_append]
    apply if_neg
    rw [List.isPrefixOf_iff_prefix]
    intro opens
    have blank : ' ' ∉ e.key := fun inside => absurd (plain.word _ inside).2 (by decide)
    rcases List.prefix_or_prefix_of_prefix opens (List.prefix_append e.key _) with within | within
    · exact blank (within.subset (by simp))
    · obtain ⟨cut, same⟩ := within
      rw [← same, List.prefix_append_right_inj] at opens
      cases cut with
      | nil =>
        rw [List.append_nil] at same
        exact blank (same ▸ by simp)
      | cons c rest =>
        obtain ⟨rfl, _⟩ := List.cons_prefix_cons.mp opens
        have inside : '=' ∈ ['e', 'x', 'p', 'o', 'r', 't', ' '] := same ▸ by simp
        exact absurd inside (by decide)

theorem keyIn_line (plain : e.Plain) (wanted : List Char) :
    keyIn wanted e.line =
      if e.key = wanted ∧ e.value ≠ [] then some (.ofList e.value) else none := by
  have free : '=' ∉ e.key := fun inside => (plain.word _ inside).1 rfl
  have word : Edges (fun c => whiteSpace c = false) e.key :=
    ⟨fun c first => (plain.word c (List.mem_of_head? first)).2,
      fun c last => (plain.word c (List.mem_of_getLast? last)).2⟩
  have double : Edges (fun c => c ≠ '"') e.value :=
    ⟨fun c first => (plain.unquoted.1 c first).1, fun c last => (plain.unquoted.2 c last).1⟩
  have single : Edges (fun c => c ≠ singleQuote) e.value :=
    ⟨fun c first => (plain.unquoted.1 c first).2, fun c last => (plain.unquoted.2 c last).2⟩
  have value : trimMatches singleQuote (trimMatches '"' (e.quote.around e.value)) = e.value := by
    cases e.quote with
    | bare =>
      rw [Quote.around, trimMatches_edges double, trimMatches_edges single]
    | single =>
      rw [Quote.around, trimMatches_edges (edges_around (by decide) e.value),
        trimMatches_around single]
    | double => rw [Quote.around, trimMatches_around double, trimMatches_edges single]
  rw [keyIn, trim_edges plain.line, stripExport_line plain, splitOnce_append free]
  dsimp only
  rw [trim_edges word, trim_edges plain.shown, value]
  by_cases same : e.key = wanted
  · cases e.value <;> simp [same]
  · simp [same]

theorem trim_stripReturn (raw : List Char) : trim (stripReturn raw) = trim raw := by
  unfold stripReturn
  split
  · next last =>
    have whole := List.dropLast_append_getLast? '\r' last
    rw [← whole, List.dropLast_concat, trim, trim, trimStart, trimStart, List.dropWhile_append]
    split
    · next blank =>
      rw [List.isEmpty_iff.mp blank]
      rfl
    · rw [trimEnd_space (by decide)]
  · rfl

theorem keyIn_stripReturn (wanted raw : List Char) :
    keyIn wanted (stripReturn raw) = keyIn wanted raw := by
  rw [keyIn, keyIn, trim_stripReturn]

theorem linesFrom_join {lines : List (List Char)} (whole : ∀ line ∈ lines, '\n' ∉ line) :
    linesFrom [] (Lines.join lines) = lines.map stripReturn := by
  induction lines with
  | nil => rfl
  | cons line rest ih =>
    obtain ⟨here, later⟩ := List.forall_mem_cons.mp whole
    rw [Lines.join_cons, linesFrom_line here, ih later, List.nil_append, List.map_cons]

/-- A line of a key file: an assignment, or one that assigns nothing. -/
inductive KeyLine where
  | entry (e : KeyEntry)
  | other (text : List Char)

def KeyLine.text : KeyLine → List Char
  | entry e => e.line
  | other text => text

def KeyLine.Plain : KeyLine → Prop
  | entry e => e.Plain
  | other text => '\n' ∉ text ∧ '=' ∉ text

/-- The value that a line is meant to give to the key. -/
def KeyLine.gives (wanted : List Char) : KeyLine → Option String
  | entry e => if e.key = wanted ∧ e.value ≠ [] then some (.ofList e.value) else none
  | other _ => none

theorem KeyLine.Plain.whole {line : KeyLine} (plain : line.Plain) : '\n' ∉ line.text := by
  cases line with
  | other text => exact plain.1
  | entry e =>
    intro inside
    have key : '\n' ∉ e.key := fun inside => absurd (plain.word _ inside).2 (by decide)
    have shown : '\n' ∉ e.quote.around e.value := by
      have apart : ('\n' : Char) ≠ '"' ∧ ('\n' : Char) ≠ singleQuote := by decide
      cases e.quote <;> simp [Quote.around, plain.unbroken, apart]
    rw [KeyLine.text, KeyEntry.line, List.mem_append, List.mem_append, List.mem_cons] at inside
    rcases inside with (exported | inside) | broken | inside
    · split at exported
      · exact absurd exported (by decide)
      · cases exported
    · exact key inside
    · exact absurd broken (by decide)
    · exact shown inside

theorem KeyLine.Plain.gives {line : KeyLine} (plain : line.Plain) (wanted : List Char) :
    keyIn wanted line.text = line.gives wanted := by
  cases line with
  | entry e => exact keyIn_line plain wanted
  | other text =>
    have trimmed : trim text ⊆ text :=
      List.Subset.trans (trimEnd_cut _).subset (List.dropWhile_suffix _).subset
    have inside : stripExport (trim text) ⊆ text := by
      unfold stripExport
      split
      · exact List.Subset.trans (List.drop_subset _ _) trimmed
      · exact trimmed
    rw [KeyLine.text, keyIn, splitOnce, if_neg fun member => plain.2 (inside member)]
    rfl

/-- A key file gives the first value for the key that is not empty, however the assignments
are written, and fails without one. -/
theorem key_file_read (host : EngineHost) (path wanted : String) (lines : List KeyLine)
    (plain : ∀ line ∈ lines, line.Plain)
    (written : host.readToString path = .ok (Lines.join (lines.map KeyLine.text))) :
    parseKeyFile host path wanted =
      match lines.findSome? (KeyLine.gives wanted.toList) with
      | some val => .ok val
      | none => .error (.engineDown s!"keys file missing entry: {wanted}") := by
  have found : (linesFrom [] (Lines.join (lines.map KeyLine.text))).findSome? (keyIn wanted.toList) =
      lines.findSome? (KeyLine.gives wanted.toList) := by
    rw [linesFrom_join fun text member => by
      obtain ⟨line, inside, rfl⟩ := List.mem_map.mp member
      exact (plain line inside).whole]
    clear written
    induction lines with
    | nil => rfl
    | cons line rest ih =>
      obtain ⟨here, later⟩ := List.forall_mem_cons.mp plain
      rw [List.map_cons, List.map_cons, List.findSome?_cons, List.findSome?_cons,
        keyIn_stripReturn, here.gives, ih later]
  rw [parseKeyFile, written]
  dsimp only
  rw [found]

def keyLines : List KeyLine := [.other "# keys".toList,
  .entry ⟨false, "ZAI_KEY".toList, .bare, []⟩, .entry ⟨true, "ZAI_KEY".toList, .double, "k 1".toList⟩,
  .entry ⟨false, "ZAI_KEY".toList, .single, "k2".toList⟩]

def keyHost : EngineHost :=
  { tokenHost with readToString := fun _ => .ok (Lines.join (keyLines.map KeyLine.text)) }

theorem keyLines_plain : ∀ line ∈ keyLines, line.Plain := by
  rw [keyLines, List.forall_mem_cons, List.forall_mem_cons, List.forall_mem_cons,
    List.forall_mem_singleton]
  refine ⟨⟨by decide, by decide⟩, ?_, ?_, ?_⟩ <;>
    constructor <;> simp [Edges, whiteSpace, singleQuote]

theorem exported_key_read : parseKeyFile keyHost "/keys.env" "ZAI_KEY" = .ok "k 1" :=
  (key_file_read keyHost "/keys.env" "ZAI_KEY" keyLines keyLines_plain rfl).trans rfl

end KeyFiles
end Crewd.Engines
