import Crewd.Auth
import Crewd.Lib.Paths

/-! The handshake. The cell that a client claims to be is any text, and a part of the path
of the token file, so two cells share a token when their names lead to one file; under
plain names the files are those of the file issuer. -/
namespace Crewd
open Paths

/-- Where the daemon keeps its tokens, and what the system says when a path does not open. -/
structure Host where
  tree : Tree
  tokensDir : Path
  complaint : String → String

/-- The file that a cell name leads to, unless it is a directory. -/
def Host.recordPath (host : Host) (cellId : String) : Option Path :=
  (host.tree.resolve host.tokensDir (cellId ++ ".token")).filter fun path => !host.tree.isDir path

/-- The file issuer for any cell name, over the files that can be read as records. -/
structure DiskIssuer where
  files : Path → Option TokenRecord
  revoked : List String

section Issuing
variable (host : Host)

namespace DiskIssuer

def new : DiskIssuer where
  files _ := none
  revoked := []

def readRecord (issuer : DiskIssuer) (cellId : String) : Option TokenRecord :=
  (host.recordPath cellId).bind issuer.files

def writeRecord (issuer : DiskIssuer) (cellId : String) (record : TokenRecord) :
    Except BusError DiskIssuer :=
  match host.recordPath cellId with
  | some path => .ok { issuer with files := Function.update issuer.files path (some record) }
  | none => .error (.internal ("token write: " ++ host.complaint cellId))

/-- Whichever record is current is flagged; the identifier is remembered. -/
def revoke (issuer : DiskIssuer) (cellId tokenId : String) : Except BusError Unit × DiskIssuer :=
  match issuer.readRecord host cellId with
  | some record =>
    match issuer.writeRecord host cellId { record with revoked := true } with
    | .ok flagged => (.ok (), { flagged with revoked := tokenId :: flagged.revoked })
    | .error e => (.error e, issuer)
  | none => (.ok (), { issuer with revoked := tokenId :: issuer.revoked })

variable [Platform]

def verify (issuer : DiskIssuer) (cellId token : String) (now : Nat) : Except BusError String :=
  match issuer.readRecord host cellId with
  | none => .error (.authRejected ("no token record for " ++ cellId))
  | some record =>
    if record.revoked ∨ record.tokenId ∈ issuer.revoked then
      .error (.authRejected ("token revoked for " ++ cellId))
    else if record.expiresAt < rfc3339FromUnixSecs now then
      .error (.authRejected ("token expired for " ++ cellId))
    else if !ctEq record.tokenHash (Platform.sha256 token) then
      .error (.authRejected ("bad token for " ++ cellId))
    else
      .ok record.tokenId

def issue (issuer : DiskIssuer) (cellId : String) (ttlSecs now : Nat)
    (drawn : FileIssuer.Secrets) : Except BusError IssuedCredential × DiskIssuer :=
  let expiresAt := rfc3339FromUnixSecs (saturatingAdd now ttlSecs)
  let record : TokenRecord :=
    { tokenId := drawn.tokenId, tokenHash := Platform.sha256 drawn.token, expiresAt, revoked := false }
  match issuer.writeRecord host cellId record with
  | .ok written => (.ok { tokenId := drawn.tokenId, token := drawn.token, expiresAt }, written)
  | .error e => (.error e, issuer)

def rotate (issuer : DiskIssuer) (cellId : String) (now : Nat) (drawn : FileIssuer.Secrets) :
    Except BusError IssuedCredential × DiskIssuer :=
  issuer.issue host cellId FileIssuer.rotationTtlSecs now drawn

end DiskIssuer
end Issuing

structure PeerCred where
  uid : Nat
  gid : Nat
  pid : Option Nat

structure ClientProof where
  cellId : String
  token : String
  specVersion : String

inductive AuthLevel where
  | l0Token
  | unixUid
  | isolatedService
  | container
deriving DecidableEq

structure CellPrincipal where
  cellId : String
  authLevel : AuthLevel
  unixUid : Option Nat
  unixGid : Option Nat
  pid : Option Nat
  pidfdSupported : Bool
  tokenId : Option String
deriving DecidableEq

variable [Platform] {host : Host}

def DiskIssuer.authenticate (host : Host) (issuer : DiskIssuer) (peer : PeerCred)
    (proof : ClientProof) (now : Nat) : Except BusError CellPrincipal :=
  if proof.specVersion ≠ specVersion then
    .error (.unsupportedSpecVersion ("got " ++ proof.specVersion))
  else
    match issuer.verify host proof.cellId proof.token now with
    | .error e => .error e
    | .ok tokenId => .ok {
        cellId := proof.cellId
        authLevel := .l0Token
        unixUid := some peer.uid
        unixGid := some peer.gid
        pid := peer.pid
        pidfdSupported := false
        tokenId := some tokenId }

section Plain
variable {issuer : DiskIssuer} {cell : CellName}

omit [Platform]

/-- The files of the tokens directory, by their names. -/
def DiskIssuer.named (host : Host) (issuer : DiskIssuer) : FileIssuer where
  files name := issuer.files (host.tokensDir ++ [name])
  revoked := issuer.revoked

/-- The cell's name opens in the tokens directory. -/
structure Host.Opens (host : Host) (cell : CellName) : Prop where
  taken : host.tree.takes (FileIssuer.recordPath cell) = true
  file : host.tree.isDir (host.tokensDir ++ [FileIssuer.recordPath cell]) = false

theorem recordPath_named (cell : CellName) : Plain (FileIssuer.recordPath cell) := by
  have text : (FileIssuer.recordPath cell).toList = cell.text.toList ++ ".token".toList :=
    String.toList_append
  constructor
  · rw [text, List.mem_append, not_or]
    exact ⟨cell.plain, by decide⟩
  · intro same
    rw [same] at text
    simp at text
  · constructor
    · intro same
      have longer := congrArg List.length text
      rw [same, List.length_append] at longer
      simp at longer
    · intro same
      have longer := congrArg List.length text
      rw [same, List.length_append] at longer
      simp at longer

/-- A plain name leads to the tokens directory or nowhere. -/
theorem recordPath_plain (found : host.recordPath cell.text = some path) :
    path = host.tokensDir ++ [FileIssuer.recordPath cell] := by
  obtain ⟨resolved, _⟩ := Option.filter_eq_some_iff.mp found
  have taken : host.tree.takes (FileIssuer.recordPath cell) = true := by
    by_contra refused
    rw [Tree.resolve, ← FileIssuer.recordPath, if_neg refused] at resolved
    cases resolved
  have whole : host.tree.resolve host.tokensDir (cell.text ++ ".token") =
      some (host.tokensDir ++ [FileIssuer.recordPath cell]) :=
    Tree.resolve_plain (recordPath_named cell) taken
  exact Option.some.inj (resolved.symm.trans whole)

theorem Host.Opens.path (opens : host.Opens cell) :
    host.recordPath cell.text = some (host.tokensDir ++ [FileIssuer.recordPath cell]) := by
  have resolved : host.tree.resolve host.tokensDir (cell.text ++ ".token") =
      some (host.tokensDir ++ [FileIssuer.recordPath cell]) :=
    Tree.resolve_plain (recordPath_named cell) opens.taken
  rw [recordPath, resolved]
  apply Option.filter_eq_some_iff.mpr
  exact ⟨rfl, by rw [opens.file]; rfl⟩

theorem readRecord_named (opens : host.Opens cell) :
    issuer.readRecord host cell.text = (issuer.named host).readRecord cell := by
  rw [DiskIssuer.readRecord, opens.path]
  rfl

theorem writeRecord_named (issuer : DiskIssuer) (opens : host.Opens cell) (record : TokenRecord) :
    ∃ written, issuer.writeRecord host cell.text record = .ok written ∧
      written.named host = (issuer.named host).writeRecord cell record := by
  rw [DiskIssuer.writeRecord, opens.path]
  refine ⟨_, rfl, ?_⟩
  unfold DiskIssuer.named FileIssuer.writeRecord
  congr 1
  funext name
  by_cases same : name = FileIssuer.recordPath cell
  · dsimp only
    rw [same, if_pos rfl, Function.update_self]
  · have apart : host.tokensDir ++ [name] ≠ host.tokensDir ++ [FileIssuer.recordPath cell] := by
      intro paths
      exact same (List.singleton_inj.mp (List.append_cancel_left paths))
    dsimp only
    rw [if_neg same, Function.update_of_ne apart]

variable [Platform]

/-- Under plain names the tokens are verified, issued and revoked as by the file issuer. -/
theorem verify_named (opens : host.Opens cell) (token : String) (now : Nat) :
    issuer.verify host cell.text token now = (issuer.named host).verify cell token now := by
  unfold DiskIssuer.verify FileIssuer.verify
  rw [readRecord_named opens]
  rfl

theorem issue_named (opens : host.Opens cell) (ttlSecs now : Nat) (drawn : FileIssuer.Secrets) :
    (issuer.issue host cell.text ttlSecs now drawn).1 =
        .ok ((issuer.named host).issue cell ttlSecs now drawn).1 ∧
      (issuer.issue host cell.text ttlSecs now drawn).2.named host =
        ((issuer.named host).issue cell ttlSecs now drawn).2 := by
  obtain ⟨written, wrote, same⟩ := writeRecord_named issuer opens
    ⟨drawn.tokenId, Platform.sha256 drawn.token,
      rfc3339FromUnixSecs (saturatingAdd now ttlSecs), false⟩
  simp only [DiskIssuer.issue, wrote]
  exact ⟨rfl, same⟩

omit [Platform] in
theorem revoke_named (opens : host.Opens cell) (tokenId : String) :
    (issuer.revoke host cell.text tokenId).2.named host =
      (issuer.named host).revoke cell tokenId := by
  unfold DiskIssuer.revoke FileIssuer.revoke
  rw [readRecord_named opens]
  cases (issuer.named host).readRecord cell with
  | none => rfl
  | some record =>
    obtain ⟨written, wrote, same⟩ := writeRecord_named issuer opens
      { record with revoked := true }
    simp only [wrote]
    change { written.named host with revoked := tokenId :: (written.named host).revoked } = _
    rw [same]

end Plain

/-- What happens to the token files: the issuer's calls, restarts of the daemon, after which
the files are what is left, and files that others write or remove where the tokens are not. -/
inductive TokenEvent (host : Host) where
  | issue (cellId : String) (ttlSecs now : Nat) (drawn : FileIssuer.Secrets)
  | rotate (cellId : String) (now : Nat) (drawn : FileIssuer.Secrets)
  | revoke (cellId tokenId : String)
  | restart
  | beside (path : Path) (outside : ¬ host.tokensDir <+: path) (record : Option TokenRecord)

namespace TokenEvent

def perform (issuer : DiskIssuer) : TokenEvent host → DiskIssuer
  | .issue cellId ttlSecs now drawn => (issuer.issue host cellId ttlSecs now drawn).2
  | .rotate cellId now drawn => (issuer.rotate host cellId now drawn).2
  | .revoke cellId tokenId => (issuer.revoke host cellId tokenId).2
  | .restart => { issuer with revoked := [] }
  | .beside path _ record => { issuer with files := Function.update issuer.files path record }

/-- The event hands out a credential for the cell. -/
def Credits (issuer : DiskIssuer) (cellId : String) : TokenEvent host → Prop
  | .issue other ttlSecs now drawn =>
    other = cellId ∧ ∃ credential, (issuer.issue host other ttlSecs now drawn).1 = .ok credential
  | .rotate other now drawn =>
    other = cellId ∧ ∃ credential, (issuer.rotate host other now drawn).1 = .ok credential
  | _ => False

omit [Platform] in
/-- Credentials are asked for in these names only. -/
def Names (names : Set String) : TokenEvent host → Prop
  | .issue cellId _ _ _ => cellId ∈ names
  | .rotate cellId _ _ => cellId ∈ names
  | _ => True

end TokenEvent

/-- The issuer after what has happened, the newest first. -/
def DiskIssuer.after : List (TokenEvent host) → DiskIssuer
  | [] => .new
  | event :: before => event.perform (DiskIssuer.after before)

/-- A credential was handed out for exactly this cell name. -/
def Issued (cellId : String) : List (TokenEvent host) → Prop
  | [] => False
  | event :: before => event.Credits (DiskIssuer.after before) cellId ∨ Issued cellId before

/-- The file of the cell name is among the tokens and no other of the names leads to it. -/
def Host.Exclusive (host : Host) (names : Set String) (cellId : String) : Prop :=
  ∀ path, host.recordPath cellId = some path →
    host.tokensDir <+: path ∧ ∀ other ∈ names, host.recordPath other = some path → other = cellId

section Histories
variable {names : Set String} {history : List (TokenEvent host)}

omit [Platform] in
theorem writeRecord_ok {issuer written : DiskIssuer}
    (wrote : issuer.writeRecord host cellId record = .ok written) :
    ∃ path, host.recordPath cellId = some path ∧
      written = { issuer with files := Function.update issuer.files path (some record) } := by
  unfold DiskIssuer.writeRecord at wrote
  split at wrote
  · next path found => exact ⟨path, found, (Except.ok.inj wrote).symm⟩
  · cases wrote

theorem issue_cases (host : Host) (issuer : DiskIssuer) (cellId : String) (ttlSecs now : Nat)
    (drawn : FileIssuer.Secrets) :
    (issuer.issue host cellId ttlSecs now drawn).2 = issuer ∨
      ∃ credential path record, (issuer.issue host cellId ttlSecs now drawn).1 = .ok credential ∧
        host.recordPath cellId = some path ∧ (issuer.issue host cellId ttlSecs now drawn).2 =
          { issuer with files := Function.update issuer.files path (some record) } := by
  unfold DiskIssuer.issue
  dsimp only
  split
  · next written wrote =>
    obtain ⟨path, found, same⟩ := writeRecord_ok wrote
    exact .inr ⟨_, path, _, rfl, found, same⟩
  · exact .inl rfl

omit [Platform] in
theorem revoke_cases (host : Host) (issuer : DiskIssuer) (cellId tokenId : String) :
    (issuer.revoke host cellId tokenId).2.files = issuer.files ∨
      ∃ path before flagged, issuer.files path = some before ∧
        (issuer.revoke host cellId tokenId).2.files =
          Function.update issuer.files path (some flagged) := by
  unfold DiskIssuer.revoke
  split
  · next before read =>
    split
    · next flagged wrote =>
      obtain ⟨path, found, rfl⟩ := writeRecord_ok wrote
      rw [DiskIssuer.readRecord, found] at read
      exact .inr ⟨path, before, _, read, rfl⟩
    · exact .inl rfl
  · exact .inl rfl

/-- Each record among the tokens stands where the name of an issued credential leads. -/
def Owned (history : List (TokenEvent host)) : Prop :=
  ∀ path record, host.tokensDir <+: path → (DiskIssuer.after history).files path = some record →
    ∃ cellId, Issued cellId history ∧ host.recordPath cellId = some path

/-- A record that an event leaves was there before, or is that of the credential it hands out. -/
theorem perform_files {issuer : DiskIssuer} {event : TokenEvent host}
    (inside : host.tokensDir <+: path) (left : (event.perform issuer).files path = some record) :
    (∃ before, issuer.files path = some before) ∨
      ∃ cellId, event.Credits issuer cellId ∧ host.recordPath cellId = some path := by
  have issued : ∀ {cellId ttlSecs now drawn},
      (issuer.issue host cellId ttlSecs now drawn).2.files path = some record →
      (∃ before, issuer.files path = some before) ∨
        (∃ credential, (issuer.issue host cellId ttlSecs now drawn).1 = .ok credential) ∧
          host.recordPath cellId = some path := by
    intro cellId ttlSecs now drawn left
    rcases issue_cases host issuer cellId ttlSecs now drawn with same |
      ⟨credential, written, _, granted, found, same⟩
    · rw [same] at left
      exact .inl ⟨_, left⟩
    · by_cases here : path = written
      · subst here
        exact .inr ⟨⟨credential, granted⟩, found⟩
      · rw [same] at left
        exact .inl ⟨_, (Function.update_of_ne here _ _).symm.trans left⟩
  cases event with
  | issue cellId ttlSecs now drawn =>
    exact (issued left).imp_right fun ⟨granted, found⟩ => ⟨cellId, ⟨rfl, granted⟩, found⟩
  | rotate cellId now drawn =>
    exact (issued left).imp_right fun ⟨granted, found⟩ => ⟨cellId, ⟨rfl, granted⟩, found⟩
  | revoke cellId tokenId =>
    rcases revoke_cases host issuer cellId tokenId with same | ⟨written, before, _, read, same⟩
    · rw [TokenEvent.perform, same] at left
      exact .inl ⟨_, left⟩
    · by_cases here : path = written
      · subst here
        exact .inl ⟨before, read⟩
      · rw [TokenEvent.perform, same] at left
        exact .inl ⟨_, (Function.update_of_ne here _ _).symm.trans left⟩
  | restart => exact .inl ⟨_, left⟩
  | beside other outside record' =>
    have apart : path ≠ other := by
      rintro rfl
      exact outside inside
    exact .inl ⟨_, (Function.update_of_ne apart _ _).symm.trans left⟩

theorem owned (history : List (TokenEvent host)) : Owned history := by
  induction history with
  | nil =>
    intro path record _ held
    cases held
  | cons event before ih =>
    intro path record inside held
    rcases perform_files inside held with ⟨earlier, held⟩ | ⟨cellId, credited, found⟩
    · obtain ⟨cellId, issued, found⟩ := ih path earlier inside held
      exact ⟨cellId, .inr issued, found⟩
    · exact ⟨cellId, .inl credited, found⟩

theorem TokenEvent.Credits.named {issuer : DiskIssuer} {event : TokenEvent host}
    (credited : event.Credits issuer cellId) (named : event.Names names) : cellId ∈ names := by
  cases event with
  | issue other ttlSecs now drawn =>
    obtain ⟨rfl, _⟩ := credited
    exact named
  | rotate other now drawn =>
    obtain ⟨rfl, _⟩ := credited
    exact named
  | revoke => exact credited.elim
  | restart => exact credited.elim
  | beside => exact credited.elim

theorem Issued.named (issued : Issued cellId history) (within : ∀ event ∈ history, event.Names names) :
    cellId ∈ names := by
  induction history with
  | nil => exact issued.elim
  | cons event before ih =>
    obtain ⟨here, earlier⟩ := List.forall_mem_cons.mp within
    rcases issued with credited | issued
    · exact credited.named here
    · exact ih issued earlier

/-- Who is let in gave a cell name that leads to a record. -/
theorem authenticate_ok {issuer : DiskIssuer}
    (passed : issuer.authenticate host peer proof now = .ok principal) :
    principal.cellId = proof.cellId ∧ ∃ record, issuer.readRecord host proof.cellId = some record := by
  unfold DiskIssuer.authenticate at passed
  split at passed
  · cases passed
  · split at passed
    · cases passed
    · next tokenId verified =>
      cases passed
      refine ⟨rfl, ?_⟩
      unfold DiskIssuer.verify at verified
      split at verified
      · cases verified
      · next record read => exact ⟨record, read⟩

/-- A record in force lets its token in under every name that leads to it. -/
theorem authenticates {issuer : DiskIssuer} {record : TokenRecord} {token : String} {now : Nat}
    (read : issuer.readRecord host cellId = some record) (unflagged : record.revoked = false)
    (unnamed : issuer.revoked = []) (good : record.expiresAt = rfc3339FromUnixSecs now)
    (hash : record.tokenHash = Platform.sha256 token) (peer : PeerCred) :
    ∃ principal, principal.cellId = cellId ∧
      issuer.authenticate host peer ⟨cellId, token, specVersion⟩ now = .ok principal := by
  have verified : issuer.verify host cellId token now = .ok record.tokenId := by
    have standing : ¬ (record.revoked = true ∨ record.tokenId ∈ issuer.revoked) := by
      rw [unflagged, unnamed]
      simp
    have timely : ¬ record.expiresAt < rfc3339FromUnixSecs now := by
      rw [good]
      exact String.lt_irrefl _
    unfold DiskIssuer.verify
    rw [read]
    dsimp only
    rw [if_neg standing, if_neg timely, hash, ctEq_iff.mpr rfl]
    rfl
  refine ⟨⟨cellId, .l0Token, some peer.uid, some peer.gid, peer.pid, false, some record.tokenId⟩,
    rfl, ?_⟩
  unfold DiskIssuer.authenticate
  dsimp only
  rw [if_neg (not_not.mpr rfl), verified]

/-- Only cells with a credential of their own are let in under a name, whatever has happened to
the tokens, just when its file is a token file and is no other cell's. -/
theorem authenticated_issued_iff (names : Set String) (cellId : String) :
    (∀ history : List (TokenEvent host), (∀ event ∈ history, event.Names names) →
      ∀ peer proof now principal, proof.cellId = cellId →
        (DiskIssuer.after history).authenticate host peer proof now = .ok principal →
          Issued principal.cellId history) ↔
      host.Exclusive names cellId := by
  constructor
  · intro property path found
    constructor
    · by_contra outside
      let record : TokenRecord := ⟨"", Platform.sha256 "", rfc3339FromUnixSecs 0, false⟩
      have read : (DiskIssuer.after [.beside path outside (some record)]).readRecord host cellId =
          some record := by
        rw [DiskIssuer.readRecord, found]
        exact Function.update_self _ _ _
      obtain ⟨principal, same, passed⟩ := authenticates read rfl rfl rfl rfl ⟨0, 0, none⟩
      have issued := property _ (by simp [TokenEvent.Names]) _ _ _ _ rfl passed
      exact issued.elim id id
    · intro other member shared
      let granted : List (TokenEvent host) := [.issue other 0 0 ⟨"", ""⟩]
      let record : TokenRecord := ⟨"", Platform.sha256 "", rfc3339FromUnixSecs 0, false⟩
      have wrote : DiskIssuer.after granted =
          { DiskIssuer.new with files := Function.update DiskIssuer.new.files path (some record) } := by
        simp only [granted, record, DiskIssuer.after, TokenEvent.perform, DiskIssuer.issue,
          DiskIssuer.writeRecord, shared]
        rfl
      have read : (DiskIssuer.after granted).readRecord host cellId = some record := by
        rw [DiskIssuer.readRecord, found, wrote]
        exact Function.update_self _ _ _
      have unnamed : (DiskIssuer.after granted).revoked = [] := congrArg DiskIssuer.revoked wrote
      obtain ⟨principal, same, passed⟩ := authenticates read rfl unnamed rfl rfl ⟨0, 0, none⟩
      have within : ∀ event ∈ granted, event.Names names := by
        intro event inside
        obtain rfl := List.mem_singleton.mp inside
        exact member
      have issued := property granted within _ _ _ principal rfl passed
      rw [same] at issued
      exact (issued.resolve_right id).1
  · rintro exclusive history within peer proof now principal rfl passed
    obtain ⟨same, record, read⟩ := authenticate_ok passed
    obtain ⟨path, found, held⟩ := Option.bind_eq_some_iff.mp read
    obtain ⟨inside, alone⟩ := exclusive path found
    obtain ⟨other, issued, leads⟩ := owned history path record inside held
    obtain rfl := alone other (issued.named within) leads
    rw [same]
    exact issued

omit [Platform] in
/-- Plain names are told apart. -/
theorem plain_exclusive (host : Host) (cell : CellName) :
    host.Exclusive {name | '/' ∉ name.toList} cell.text := by
  intro path found
  obtain rfl := recordPath_plain found
  refine ⟨List.prefix_append _ _, fun other whole shared => ?_⟩
  let named : CellName := ⟨other, whole⟩
  have same : host.tokensDir ++ [FileIssuer.recordPath cell] =
      host.tokensDir ++ [FileIssuer.recordPath named] := recordPath_plain shared
  exact (recordPath_inj.mp (List.singleton_inj.mp (List.append_cancel_left same))).symm

end Histories

section Samples

omit [Platform]

def sampleHost : Host where
  tree := ⟨fun dir => dir ∈ [[], ["run"], ["run", "crewd"], ["run", "crewd", "tokens"]],
    fun text => '\x00' ∉ text.toList⟩
  tokensDir := ["run", "crewd", "tokens"]
  complaint _ := "No such file or directory (os error 2)"

/-- One cell has a credential. -/
def meshIssued : List (TokenEvent sampleHost) := [.issue "mesh" 3600 1783242000 firstDraw]

/-- Its token lets in a cell that never had one. -/
theorem other_spelling_authenticated : let _ := Platform.sample
    (∃ principal, (DiskIssuer.after meshIssued).authenticate sampleHost ⟨1000, 1000, none⟩
      ⟨"./mesh", "5f3a", specVersion⟩ 1783242060 = .ok principal ∧ principal.cellId = "./mesh") ∧
    ¬ Issued "./mesh" meshIssued := by
  let _ := Platform.sample
  constructor
  · refine ⟨⟨"./mesh", .l0Token, some 1000, some 1000, none, false, some "0a01"⟩, ?_, rfl⟩
    decide +kernel
  · intro issued
    exact absurd (issued.resolve_right id).1 (by decide)

end Samples
end Crewd
