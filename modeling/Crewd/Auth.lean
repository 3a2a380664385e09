import Crewd.Dates

/-! Token files: issuing, rotating, revoking and verifying the token of a cell.
A record keeps the digest of the token and the text of its expiry; the issuer
also remembers every identifier it was asked to revoke. -/
namespace Crewd
variable [Platform]

/-- Every byte is compared, wherever the first difference is. -/
def ctEq (a b : String) : Bool :=
  if a.utf8ByteSize ≠ b.utf8ByteSize then false
  else (a.toUTF8.data.toList.zip b.toUTF8.data.toList).foldl
    (fun diff (x, y) => diff ||| (x ^^^ y)) 0 == 0

structure TokenRecord where
  tokenId : String
  tokenHash : String
  expiresAt : String
  revoked : Bool

structure IssuedCredential where
  tokenId : String
  token : String
  expiresAt : String

/-- A cell name that is one component of a path. -/
structure CellName where
  text : String
  plain : '/' ∉ text.toList

structure FileIssuer where
  files : String → Option TokenRecord
  revoked : List String

namespace FileIssuer

def new : FileIssuer where
  files _ := none
  revoked := []

omit [Platform] in
def recordPath (cellId : CellName) : String := cellId.text ++ ".token"

omit [Platform] in
def readRecord (issuer : FileIssuer) (cellId : CellName) : Option TokenRecord :=
  issuer.files (recordPath cellId)

omit [Platform] in
def writeRecord (issuer : FileIssuer) (cellId : CellName) (record : TokenRecord) : FileIssuer :=
  { issuer with files := fun path =>
      if path = recordPath cellId then some record else issuer.files path }

def verify (issuer : FileIssuer) (cellId : CellName) (token : String) (now : Nat) :
    Except BusError String :=
  match issuer.readRecord cellId with
  | none => .error (.authRejected ("no token record for " ++ cellId.text))
  | some record =>
    if record.revoked ∨ record.tokenId ∈ issuer.revoked then
      .error (.authRejected ("token revoked for " ++ cellId.text))
    else if record.expiresAt < rfc3339FromUnixSecs now then
      .error (.authRejected ("token expired for " ++ cellId.text))
    else if !ctEq record.tokenHash (Platform.sha256 token) then
      .error (.authRejected ("bad token for " ++ cellId.text))
    else
      .ok record.tokenId

/-- The random draws of one call. -/
structure Secrets where
  token : String
  tokenId : String

def issue (issuer : FileIssuer) (cellId : CellName) (ttlSecs now : Nat) (drawn : Secrets) :
    IssuedCredential × FileIssuer :=
  let expiresAt := rfc3339FromUnixSecs (saturatingAdd now ttlSecs)
  let record : TokenRecord :=
    { tokenId := drawn.tokenId, tokenHash := Platform.sha256 drawn.token, expiresAt, revoked := false }
  ({ tokenId := drawn.tokenId, token := drawn.token, expiresAt }, issuer.writeRecord cellId record)

def rotationTtlSecs : Nat := 86400

def rotate (issuer : FileIssuer) (cellId : CellName) (now : Nat) (drawn : Secrets) :
    IssuedCredential × FileIssuer :=
  issuer.issue cellId rotationTtlSecs now drawn

omit [Platform] in
/-- Whichever record is current is flagged; the identifier is remembered. -/
def revoke (issuer : FileIssuer) (cellId : CellName) (tokenId : String) : FileIssuer :=
  let flagged := match issuer.readRecord cellId with
    | some record => issuer.writeRecord cellId { record with revoked := true }
    | none => issuer
  { flagged with revoked := tokenId :: flagged.revoked }

end FileIssuer

section Comparison

omit [Platform]

theorem differences_eq_zero_iff (pairs : List (UInt8 × UInt8)) (diff : UInt8) :
    pairs.foldl (fun diff (x, y) => diff ||| (x ^^^ y)) diff = 0 ↔
      diff = 0 ∧ ∀ pair ∈ pairs, pair.1 = pair.2 := by
  induction pairs generalizing diff with
  | nil => simp
  | cons pair pairs ih =>
    rw [List.foldl_cons, ih, List.forall_mem_cons, UInt8.or_eq_zero_iff, UInt8.xor_eq_zero_iff,
      and_assoc]

theorem eq_of_zip {a b : List UInt8} (length : a.length = b.length)
    (same : ∀ pair ∈ a.zip b, pair.1 = pair.2) : a = b := by
  induction a generalizing b with
  | nil => exact (List.length_eq_zero_iff.mp length.symm).symm
  | cons x a ih =>
    cases b with
    | nil => simp at length
    | cons y b =>
      obtain ⟨head, tail⟩ := List.forall_mem_cons.mp same
      rw [show x = y from head, ih (Nat.succ.inj length) tail]

theorem ctEq_iff {a b : String} : ctEq a b = true ↔ a = b := by
  constructor
  · intro equal
    unfold ctEq at equal
    split at equal
    · cases equal
    · next size =>
      obtain ⟨-, bytes⟩ := (differences_eq_zero_iff _ _).mp (eq_of_beq equal)
      have length : a.toUTF8.data.toList.length = b.toUTF8.data.toList.length := not_not.mp size
      apply String.toByteArray_inj.mp
      apply ByteArray.ext
      apply Array.toList_inj.mp
      exact eq_of_zip length bytes
  · rintro rfl
    unfold ctEq
    rw [if_neg (not_not.mpr rfl), beq_iff_eq, differences_eq_zero_iff]
    refine ⟨rfl, ?_⟩
    intro pair inside
    rw [List.zip_eq_zipWith, List.zipWith_self] at inside
    obtain ⟨byte, -, rfl⟩ := List.mem_map.mp inside
    rfl

end Comparison

/-- A call of the issuer, with the clock and the draws it reads. -/
inductive TokenCall where
  | issue (cellId : CellName) (ttlSecs now : Nat) (drawn : FileIssuer.Secrets)
  | rotate (cellId : CellName) (now : Nat) (drawn : FileIssuer.Secrets)
  | revoke (cellId : CellName) (tokenId : String)

def FileIssuer.perform (issuer : FileIssuer) : TokenCall → FileIssuer
  | .issue cellId ttlSecs now drawn => (issuer.issue cellId ttlSecs now drawn).2
  | .rotate cellId now drawn => (issuer.rotate cellId now drawn).2
  | .revoke cellId tokenId => issuer.revoke cellId tokenId

/-- The issuer after a history of calls, the newest first. -/
def FileIssuer.after : List TokenCall → FileIssuer
  | [] => .new
  | call :: before => (FileIssuer.after before).perform call

section Histories

omit [Platform]

/-- A token that was handed out and the instant up to which it is good. -/
structure Grant where
  drawn : FileIssuer.Secrets
  expires : Nat

def TokenCall.grant (cellId : CellName) : TokenCall → Option Grant
  | .issue other ttlSecs now drawn =>
    if other.text = cellId.text then some ⟨drawn, now + ttlSecs⟩ else none
  | .rotate other now drawn =>
    if other.text = cellId.text then some ⟨drawn, now + FileIssuer.rotationTtlSecs⟩ else none
  | .revoke _ _ => none

/-- The grant of the last issue or rotation for a cell. -/
def latest (cellId : CellName) (calls : List TokenCall) : Option Grant :=
  calls.findSome? (TokenCall.grant cellId)

/-- A revocation that names the cell came after its latest grant. -/
def revokedSince (cellId : CellName) : List TokenCall → Bool
  | [] => false
  | .revoke other _ :: before => other.text = cellId.text || revokedSince cellId before
  | call :: before => (call.grant cellId).isNone && revokedSince cellId before

def TokenCall.names (tokenId : String) : TokenCall → Prop
  | .revoke _ other => other = tokenId
  | _ => False

/-- The token is the one most recently granted, its identifier was not revoked
and its instant is not past. -/
def Current (calls : List TokenCall) (cellId : CellName) (token : String) (now : Nat) : Prop :=
  ∃ grant, latest cellId calls = some grant ∧ grant.drawn.token = token ∧
    (∀ call ∈ calls, ¬ call.names grant.drawn.tokenId) ∧ now ≤ grant.expires

/-- Where the outcome of `verify` is settled by the flag and the expiry text
alone, the flag is set on an expired record only, and the years sort as texts. -/
def FlagAndTextAgree (calls : List TokenCall) (cellId : CellName) (token : String) (now : Nat) :
    Prop :=
  ∀ grant, latest cellId calls = some grant → grant.drawn.token = token →
    (∀ call ∈ calls, ¬ call.names grant.drawn.tokenId) →
      if revokedSince cellId calls then grant.expires < now
      else YearsSort (min grant.expires u64Max) now

end Histories

def Grant.record (grant : Grant) (revoked : Bool) : TokenRecord where
  tokenId := grant.drawn.tokenId
  tokenHash := Platform.sha256 grant.drawn.token
  expiresAt := rfc3339FromUnixSecs (min grant.expires u64Max)
  revoked := revoked

section Runs

omit [Platform] in
theorem recordPath_inj {cell other : CellName} :
    FileIssuer.recordPath cell = FileIssuer.recordPath other ↔ cell.text = other.text := by
  unfold FileIssuer.recordPath
  rw [String.append_left_inj]

omit [Platform] in
theorem readRecord_writeRecord (issuer : FileIssuer) (cell other : CellName) (record : TokenRecord) :
    (issuer.writeRecord other record).readRecord cell =
      if other.text = cell.text then some record else issuer.readRecord cell := by
  simp only [FileIssuer.readRecord, FileIssuer.writeRecord, recordPath_inj, eq_comm]

omit [Platform] in
theorem readRecord_revoke (issuer : FileIssuer) (cell other : CellName) (tokenId : String) :
    (issuer.revoke other tokenId).readRecord cell =
      (issuer.readRecord cell).map fun record =>
        { record with revoked := other.text = cell.text || record.revoked } := by
  by_cases same : other.text = cell.text
  · have path : issuer.readRecord other = issuer.readRecord cell :=
      congrArg issuer.files (recordPath_inj.mpr same)
    unfold FileIssuer.revoke
    rw [path]
    cases held : issuer.readRecord cell with
    | none => exact held
    | some record =>
      apply (readRecord_writeRecord issuer cell other { record with revoked := true }).trans
      simp [same]
  · unfold FileIssuer.revoke
    cases issuer.readRecord other with
    | none => simp [same, FileIssuer.readRecord]
    | some record =>
      apply (readRecord_writeRecord issuer cell other { record with revoked := true }).trans
      simp [same]

theorem readRecord_issue (issuer : FileIssuer) (cell other : CellName) (ttlSecs now : Nat)
    (drawn : FileIssuer.Secrets) :
    (issuer.issue other ttlSecs now drawn).2.readRecord cell =
      if other.text = cell.text then some (Grant.record ⟨drawn, now + ttlSecs⟩ false)
      else issuer.readRecord cell :=
  readRecord_writeRecord issuer cell other _

/-- The record of a cell is the one of its latest grant, flagged if a revocation
has named the cell since. -/
theorem record_after (calls : List TokenCall) (cell : CellName) :
    (FileIssuer.after calls).readRecord cell =
      (latest cell calls).map (·.record (revokedSince cell calls)) := by
  induction calls with
  | nil => rfl
  | cons call before ih =>
    have granted : ∀ (other : CellName) (ttlSecs now : Nat) (drawn : FileIssuer.Secrets),
        call.grant cell =
          (if other.text = cell.text then some ⟨drawn, now + ttlSecs⟩ else none) →
        revokedSince cell (call :: before) =
          ((call.grant cell).isNone && revokedSince cell before) →
        ((FileIssuer.after before).issue other ttlSecs now drawn).2.readRecord cell =
          (latest cell (call :: before)).map (·.record (revokedSince cell (call :: before))) := by
      intro other ttlSecs now drawn grant flagged
      rw [readRecord_issue, flagged, latest, List.findSome?_cons, grant, ih]
      split
      · rfl
      · simp [latest]
    cases call with
    | issue other ttlSecs now drawn => exact granted other ttlSecs now drawn rfl rfl
    | rotate other now drawn =>
      exact granted other FileIssuer.rotationTtlSecs now drawn rfl rfl
    | revoke other tokenId =>
      apply (readRecord_revoke (FileIssuer.after before) cell other tokenId).trans
      rw [ih, Option.map_map]
      rfl

/-- The issuer remembers the identifiers it was asked to revoke, and no others. -/
theorem revoked_after (calls : List TokenCall) (tokenId : String) :
    tokenId ∈ (FileIssuer.after calls).revoked ↔ ∃ call ∈ calls, call.names tokenId := by
  induction calls with
  | nil => simp [FileIssuer.after, FileIssuer.new]
  | cons call before ih =>
    rw [List.exists_mem_cons_iff, ← ih]
    cases call with
    | issue other ttlSecs now drawn =>
      exact ⟨.inr, fun either => either.resolve_left not_false⟩
    | rotate other now drawn =>
      exact ⟨.inr, fun either => either.resolve_left not_false⟩
    | revoke other revoked =>
      have kept : (FileIssuer.after (.revoke other revoked :: before)).revoked =
          revoked :: (FileIssuer.after before).revoked := by
        change ((FileIssuer.after before).revoke other revoked).revoked = _
        unfold FileIssuer.revoke
        cases (FileIssuer.after before).readRecord other <;> rfl
      rw [kept, List.mem_cons, TokenCall.names, eq_comm]

/-- What `verify` asks of the current record. -/
theorem token_accepted_iff (issuer : FileIssuer) (cell : CellName) (token : String) (now : Nat) :
    (∃ tokenId, issuer.verify cell token now = .ok tokenId) ↔
      ∃ record, issuer.readRecord cell = some record ∧ record.revoked = false ∧
        record.tokenId ∉ issuer.revoked ∧ ¬ record.expiresAt < rfc3339FromUnixSecs now ∧
        record.tokenHash = Platform.sha256 token := by
  unfold FileIssuer.verify
  cases held : issuer.readRecord cell with
  | none => simp
  | some record =>
    have hash : ctEq record.tokenHash (Platform.sha256 token) = true ↔
        record.tokenHash = Platform.sha256 token := ctEq_iff
    simp only [Option.some.injEq, exists_eq_left']
    split
    · next flagged => grind
    · next unflagged =>
      split
      · next late => grind
      · next good =>
        split
        · next differs => grind
        · next same => grind

theorem verify_after_iff (injective : Function.Injective Platform.sha256) (calls : List TokenCall)
    (cell : CellName) (token : String) (now : Nat) :
    (∃ tokenId, (FileIssuer.after calls).verify cell token now = .ok tokenId) ↔
      ∃ grant, latest cell calls = some grant ∧ grant.drawn.token = token ∧
        (∀ call ∈ calls, ¬ call.names grant.drawn.tokenId) ∧ revokedSince cell calls = false ∧
        ¬ rfc3339FromUnixSecs (min grant.expires u64Max) < rfc3339FromUnixSecs now := by
  rw [token_accepted_iff, record_after]
  constructor
  · rintro ⟨record, held, unflagged, unnamed, good, hash⟩
    obtain ⟨grant, granted, rfl⟩ := Option.map_eq_some_iff.mp held
    rw [revoked_after] at unnamed
    exact ⟨grant, granted, injective hash, fun call inside named => unnamed ⟨call, inside, named⟩,
      unflagged, good⟩
  · rintro ⟨grant, granted, rfl, unnamed, unflagged, good⟩
    refine ⟨_, Option.map_eq_some_iff.mpr ⟨grant, granted, rfl⟩, unflagged, ?_, good, rfl⟩
    rw [revoked_after]
    rintro ⟨call, inside, named⟩
    exact unnamed call inside named

/-- `verify` accepts exactly the current token as long as the flag of the record
and the text of its expiry say what the history says. -/
theorem verify_iff_current_iff (injective : Function.Injective Platform.sha256)
    (calls : List TokenCall) (cell : CellName) (token : String) (now : Nat) (clock : now ≤ u64Max) :
    ((∃ tokenId, (FileIssuer.after calls).verify cell token now = .ok tokenId) ↔
      Current calls cell token now) ↔ FlagAndTextAgree calls cell token now := by
  rw [verify_after_iff injective]
  unfold Current FlagAndTextAgree
  by_cases own : ∃ grant, latest cell calls = some grant ∧ grant.drawn.token = token ∧
      ∀ call ∈ calls, ¬ call.names grant.drawn.tokenId
  · obtain ⟨grant, granted, held, unnamed⟩ := own
    have instant : now ≤ grant.expires ↔ ¬ min grant.expires u64Max < now := by omega
    have sorted := rfc3339_sorts_iff (min grant.expires u64Max) now
    have allowed := iff_true_intro unnamed
    simp only [granted, Option.some.injEq, exists_eq_left', forall_eq', held, allowed, true_and,
      true_implies]
    cases flagged : revokedSince cell calls with
    | true =>
      simp only [if_true, Bool.true_eq_false, false_and, false_iff]
      omega
    | false =>
      simp only [Bool.false_eq_true, if_false, true_and]
      rw [instant, ← sorted]
      exact not_iff_not
  · have refused : ∀ P : Grant → Prop, ¬ ∃ grant, latest cell calls = some grant ∧
        grant.drawn.token = token ∧ (∀ call ∈ calls, ¬ call.names grant.drawn.tokenId) ∧ P grant := by
      rintro P ⟨grant, granted, held, unnamed, -⟩
      exact own ⟨grant, granted, held, unnamed⟩
    constructor
    · intro _ grant granted held unnamed
      exact absurd ⟨grant, granted, held, unnamed⟩ own
    · intro _
      exact iff_of_false (refused _) (refused _)

end Runs

section Samples

omit [Platform]

def mesh : CellName := ⟨"mesh", by decide⟩

def firstDraw : FileIssuer.Secrets := ⟨"5f3a", "0a01"⟩

def secondDraw : FileIssuer.Secrets := ⟨"c2d7", "0a02"⟩

/-- A token is replaced, and the identifier of the replaced one revoked. -/
def staleRevoked : List TokenCall :=
  [.revoke mesh "0a01", .rotate mesh 1783242030 secondDraw, .issue mesh 3600 1783242000 firstDraw]

/-- A token of eight thousand years. -/
def longLived : List TokenCall := [.issue mesh 252455616000 1783242000 firstDraw]

theorem agreeing_history_verifies : let _ := Platform.collisionFree
    (∃ tokenId, (FileIssuer.after [.rotate mesh 1783242000 firstDraw]).verify mesh "5f3a" 1783242060 =
      .ok tokenId) ↔
    Current [.rotate mesh 1783242000 firstDraw] mesh "5f3a" 1783242060 := by
  let _ := Platform.collisionFree
  apply (verify_iff_current_iff sha256_injective _ mesh "5f3a" 1783242060 (by decide)).mpr
  rintro grant granted - -
  obtain rfl := Option.some.inj granted
  exact years_sort (by decide +kernel) (by decide +kernel)

theorem current_token_refused : let _ := Platform.collisionFree
    (Current staleRevoked mesh "c2d7" 1783242060 ∧
      (FileIssuer.after staleRevoked).verify mesh "c2d7" 1783242060 =
        .error (.authRejected "token revoked for mesh")) ∧
    Current longLived mesh "5f3a" 1783242060 ∧
      (FileIssuer.after longLived).verify mesh "5f3a" 1783242060 =
        .error (.authRejected "token expired for mesh") := by
  let _ := Platform.collisionFree
  refine ⟨⟨⟨_, rfl, rfl, ?_, by decide⟩, by decide +kernel⟩, ⟨_, rfl, rfl, ?_, by decide⟩,
    by decide +kernel⟩
  · intro call inside named
    simp only [staleRevoked, List.mem_cons, List.not_mem_nil, or_false] at inside
    rcases inside with rfl | rfl | rfl
    · exact absurd named (show ¬ "0a01" = "0a02" by decide)
    · exact named
    · exact named
  · intro call inside named
    obtain rfl := List.mem_singleton.mp inside
    exact named

end Samples

end Crewd
