import Crewd.Bus.Counting
import Crewd.Bus.Runs

/-! Authorization before everything else. What a submission is denied for depends on
its caller, its tool, its message type, its addressee and the ACL; a call answers with
that denial unless it stops at a check of its input, or cannot log the denial. -/
namespace Crewd.Bus
open Autocommit Concurrent

inductive Addressee where
  | cell (name : String)
  | ask (askId : String)
  | everyone

/-- What a submission is authorized by. -/
structure Subject where
  caller : String
  tool : Capability
  msgType : Option MsgType
  addressee : Addressee

/-- The parameters of a request without forbidden keys. -/
def wellFormed {α : Type} (params : Params α) (extraAllowed : List String) : Option α :=
  match rejectClientIdentityKeys params.keys extraAllowed, params.parsed with
  | .ok (), .ok p => some p
  | _, _ => none

def Request.subject : Request → Option Subject
  | .send caller params => (wellFormed params []).map fun p =>
    ⟨caller, .send, some (p.msgType.getD .task), .cell p.toCell⟩
  | .ask caller params => (wellFormed params []).map fun p => ⟨caller, .ask, none, .cell p.toCell⟩
  | .reply caller params => (wellFormed params ["ask_id"]).map fun p =>
    ⟨caller, .reply, none, .ask p.askId⟩
  | .broadcast caller params => (wellFormed params []).map fun p =>
    ⟨caller, .broadcast, some (p.msgType.getD .note), .everyone⟩
  | _ => none

/-- The capability that a message type needs of its own. -/
def msgTypeGate (acl : Acl) (caller : String) : MsgType → Except BusError Unit
  | .adminRequest => acl.check caller .adminRegistry
  | .ask => acl.check caller .ask
  | .reply => acl.check caller .reply
  | _ => .ok ()

namespace Subject

def capabilities (acl : Acl) (subject : Subject) : Except BusError Unit := do
  match subject.msgType with
  | some msgType => msgTypeGate acl subject.caller msgType
  | none => pure ()
  acl.check subject.caller subject.tool

/-- A reply goes to whoever asked, a broadcast to whom it may. -/
def reach (acl : Acl) (subject : Subject) : Except BusError Unit :=
  match subject.tool, subject.addressee with
  | .send, .cell target => acl.checkReach subject.caller target .send
  | .ask, .cell target => acl.checkReach subject.caller target .ask
  | _, _ => .ok ()

def verdict (acl : Acl) (subject : Subject) : Except BusError Unit := do
  subject.capabilities acl
  subject.reach acl

/-- The capability of the tool, or the protected reach, is missing. -/
def Lacks (acl : Acl) (subject : Subject) : Prop :=
  acl.check subject.caller subject.tool ≠ .ok () ∨ subject.reach acl ≠ .ok ()

end Subject

/-- The checks of the input that two of the tools make before the capability. -/
def InputPasses (acl : Acl) (caller key body : String) (fileRefs : List String) : Prop :=
  checkIdem key = .ok () ∧ checkBody body = .ok () ∧
    (fileRefs.isEmpty = true ∨ acl.check caller .attachFiles = .ok ())

/-- Nothing about the input is looked at before the capability, or nothing is wrong
with it. -/
def Unmasked (acl : Acl) : Request → Prop
  | .reply caller ⟨_, .ok p⟩ => InputPasses acl caller (p.idempotencyKey.getD "") p.body p.fileRefs
  | .broadcast caller ⟨_, .ok p⟩ => msgTypeGate acl caller (p.msgType.getD .note) = .ok () →
    InputPasses acl caller (p.idempotencyKey.getD "") p.body p.fileRefs
  | _ => True

/-- The ACL was the same in all sections. -/
def Steady (acl : Acl) (visits : BusVisits) : Prop := ∀ v ∈ visits, v.2.memory.acl = acl

/-- A denied reach is logged by the last section, whose one statement does not fail. -/
def Logged (acl : Acl) (subject : Subject) (visits : BusVisits) : Prop :=
  subject.capabilities acl = .ok () →
    ∀ v, visits.getLast? = some v → v.1.faults.headD none = none

/-- The answer is the denial that the subject gets. -/
def Denied (acl : Acl) (subject : Subject) (answer : Except BusError Answer) : Prop :=
  ∃ message, subject.verdict acl = .error (.aclDenied message) ∧
    answer = .error (.aclDenied message)

section Walk
variable {acl : Acl} {subject : Subject} {visits : BusVisits} {α : Type}

theorem Steady.before {more : BusVisits} (steady : Steady acl (visits ++ more)) :
    Steady acl visits := fun v inside => steady v (List.mem_append_left _ inside)

theorem Steady.last {v : Input Outside × World} (steady : Steady acl (visits ++ [v])) :
    v.2.memory.acl = acl := steady v (List.mem_append_right _ List.mem_cons_self)

/-- What is to be shown of a call with the subject. -/
def Judged (acl : Acl) (subject : Subject) (request : Request) (visits : BusVisits)
    (answer : Except BusError Answer) : Prop :=
  Steady acl visits → (Denied acl subject answer ↔ Unmasked acl request ∧ Logged acl subject visits)

/-- The handler judges its request, or goes on where the description says. -/
def Judges (acl : Acl) (subject : Subject) (request : Request) (visits : BusVisits)
    (h : Handler α) (answered : BusVisits → α → Prop) : Prop :=
  Goes (fun _ _ _ _ => True) (fun visits e => Judged acl subject request visits (.error e))
    visits h answered

/-- With an ACL that does not last there is nothing to show. -/
theorem Judges.unsteady {request : Request} {h : Handler Answer}
    (unsteady : ¬ Steady acl visits) : Judges acl subject request visits h
      fun visits a => Judged acl subject request visits (.ok a) := by
  refine Process.Along.always (fun _ _ _ _ => trivial) fun more r => ?_
  cases r <;> exact fun steady => absurd steady.before unsteady

theorem acl_check_denies {caller : String} {cap : Capability} {e : BusError}
    (denied : acl.check caller cap = .error e) :
    e = .aclDenied s!"{caller} lacks capability {cap.asStr}" := by
  unfold Acl.check at denied
  split at denied
  · split at denied
    · cases denied
    · exact (Except.error.inj denied).symm
  · exact (Except.error.inj denied).symm

theorem error_of_else {granted : Prop} [Decidable granted] {e e' : BusError}
    (denied : (if granted then .ok () else .error e' : Except BusError Unit) = .error e) :
    e = e' := by
  split at denied
  · cases denied
  · exact (Except.error.inj denied).symm

theorem acl_reach_denies {caller target : String} {via : ReachVia} {e : BusError}
    (denied : acl.checkReach caller target via = .error e) : ∃ message, e = .aclDenied message := by
  unfold Acl.checkReach at denied
  cases held : acl.get caller with
  | none =>
    rw [held] at denied
    exact ⟨_, (Except.error.inj denied).symm⟩
  | some c =>
    rw [held] at denied
    dsimp only at denied
    by_cases isOpen : (!((acl.get target).map (·.isProtected)).getD false) = true
    · rw [if_pos isOpen] at denied
      cases denied
    · rw [if_neg isOpen] at denied
      exact ⟨_, error_of_else denied⟩

theorem checkIdem_fails {key : String} {e : BusError} (failed : checkIdem key = .error e) :
    ∃ text, e = .bodyTooLarge text := by
  unfold checkIdem at failed
  split at failed
  · exact ⟨_, (Except.error.inj failed).symm⟩
  · cases failed

theorem checkBody_fails {body : String} {e : BusError} (failed : checkBody body = .error e) :
    ∃ text, e = .bodyTooLarge text := by
  unfold checkBody at failed
  split at failed
  · exact ⟨_, (Except.error.inj failed).symm⟩
  · cases failed

theorem gate_denies {caller : String} {msgType : MsgType} {e : BusError}
    (denied : msgTypeGate acl caller msgType = .error e) : ∃ message, e = .aclDenied message := by
  cases msgType with
  | adminRequest => exact ⟨_, acl_check_denies denied⟩
  | ask => exact ⟨_, acl_check_denies denied⟩
  | reply => exact ⟨_, acl_check_denies denied⟩
  | note => cases denied
  | task => cases denied
  | evidence => cases denied

/-- A denial by a capability is answered at once. -/
theorem judged_of_capabilities {request : Request} {e : BusError}
    (denied : subject.capabilities acl = .error e) (named : ∃ message, e = .aclDenied message)
    (unmasked : Unmasked acl request) : Judged acl subject request visits (.error e) := by
  intro _
  obtain ⟨message, rfl⟩ := named
  refine iff_of_true ⟨message, ?_, rfl⟩ ⟨unmasked, ?_⟩
  · rw [Subject.verdict, denied]
    rfl
  · intro passed
    rw [denied] at passed
    cases passed

variable {request : Request}

/-- What a steady ACL tells about the answer of a part may be used from then on. -/
theorem Judges.bind {h : Handler α} {f : α → Handler Answer} {fact : α → Prop}
    (first : Judges acl subject request visits h fun visits a => Steady acl visits → fact a)
    (rest : ∀ visits a, fact a → Judges acl subject request visits (f a)
      fun visits a => Judged acl subject request visits (.ok a)) :
    Judges acl subject request visits (h >>= f)
      fun visits a => Judged acl subject request visits (.ok a) := by
  refine Goes.bind first fun visits a told => ?_
  by_cases steady : Steady acl visits
  · exact rest visits a (told steady)
  · exact Judges.unsteady steady

/-- A part that a steady ACL does not let pass. -/
theorem Judges.stops {h : Handler α} {f : α → Handler Answer}
    (first : Judges acl subject request visits h fun visits _ => Steady acl visits → False) :
    Judges acl subject request visits (h >>= f)
      fun visits a => Judged acl subject request visits (.ok a) :=
  Goes.bind first fun _ _ stopped => Judges.unsteady stopped

theorem Judges.currentAcl : Judges acl subject request visits currentAcl
    fun visits read => Steady acl visits → read = acl := by
  apply Goes.locked
  · exact fun _ _ => trivial
  · intro i w read ran steady
    exact (Except.ok.inj ran).symm.trans steady.last
  · intro i w e ran
    cases ran

theorem Judges.checkMsgType {caller : String} {msgType : MsgType}
    (denies : ∀ visits e, msgTypeGate acl caller msgType = .error e →
      Judged acl subject request visits (.error e)) :
    Judges acl subject request visits (checkMsgType caller msgType)
      fun visits _ => Steady acl visits → msgTypeGate acl caller msgType = .ok () := by
  refine Goes.bind Judges.currentAcl fun visits read told => ?_
  have raised : ∀ cap, (∀ acl, msgTypeGate acl caller msgType = acl.check caller cap) →
      Judges acl subject request visits (raise (read.check caller cap))
        fun visits _ => Steady acl visits → msgTypeGate acl caller msgType = .ok () := by
    intro cap gate
    apply Goes.raise
    · intro _ passed steady
      rw [gate, ← told steady]
      exact passed
    · intro e denied steady
      rw [told steady, ← gate] at denied
      exact denies visits e denied steady
  cases msgType with
  | adminRequest => exact raised _ fun _ => rfl
  | ask => exact raised _ fun _ => rfl
  | reply => exact raised _ fun _ => rfl
  | note => exact fun _ => rfl
  | task => exact fun _ => rfl
  | evidence => exact fun _ => rfl

theorem Judges.checkCapability {caller : String} {cap : Capability}
    (denies : ∀ visits e, acl.check caller cap = .error e →
      Judged acl subject request visits (.error e)) :
    Judges acl subject request visits (checkCapability caller cap)
      fun visits _ => Steady acl visits → acl.check caller cap = .ok () := by
  refine Goes.bind Judges.currentAcl fun visits read told => ?_
  apply Goes.raise
  · intro _ passed steady
    rw [← told steady]
    exact passed
  · intro e denied steady
    rw [told steady] at denied
    exact denies visits e denied steady

/-- An event of a known kind is one statement. -/
theorem audit_result {kind outcome : String} {messageId fromCell toCell : Option String}
    {detail : Option Json} (known : kind ∈ auditKinds) (i : Input Outside) (w : World) :
    ((audit kind messageId fromCell toCell outcome detail).exec (w.install i)).1 =
      match i.faults.headD none with
      | none => .ok ()
      | some text => .error (.internal s!"audit append/fsync failed: {text}") := by
  simp only [audit, append, assertKind, known, if_true, nextFault, World.install, Action.exec_bind,
    Action.exec_step]
  rcases i.faults with _ | ⟨_ | text, later⟩ <;> rfl

/-- The denial of a protected reach is answered once it is logged. -/
theorem Judges.refuse {caller target message : String} {answered : BusVisits → Unit → Prop}
    (passed : subject.capabilities acl = .ok ())
    (denied : subject.reach acl = .error (.aclDenied message)) (unmasked : Unmasked acl request) :
    Judges acl subject request visits
      (refuse "protected_access_denied" caller (some target) "denied" (.aclDenied message))
      answered := by
  have verdict : subject.verdict acl = .error (.aclDenied message) := by
    rw [Subject.verdict, passed]
    exact denied
  have written : Judges acl subject request visits (locked (audit "protected_access_denied" none
      (some caller) (some target) "denied" none)) fun visits _ => Logged acl subject visits := by
    apply Goes.locked
    · exact fun _ _ => trivial
    · intro i w _ ran _ v last
      obtain rfl : (i, w) = v := by simpa using last
      rw [audit_result (by decide)] at ran
      cases fault : i.faults.headD none with
      | none => rfl
      | some text =>
        rw [fault] at ran
        cases ran
    · intro i w e ran _
      rw [audit_result (by decide)] at ran
      cases fault : i.faults.headD none with
      | none =>
        rw [fault] at ran
        cases ran
      | some text =>
        rw [fault] at ran
        obtain rfl := Except.error.inj ran
        apply iff_of_false
        · rintro ⟨_, -, same⟩
          cases same
        · rintro ⟨-, logged⟩
          have last := logged passed (i, w) (by simp)
          rw [fault] at last
          cases last
  exact Goes.bind written fun visits _ logged _ =>
    iff_of_true ⟨message, verdict, rfl⟩ ⟨unmasked, logged⟩

/-- An answer that is no denial, where the denial is masked. -/
theorem judged_masked {e : BusError} (masked : ¬ Unmasked acl request)
    (other : subject.verdict acl ≠ .error e) : Judged acl subject request visits (.error e) := by
  intro _
  apply iff_of_false
  · rintro ⟨message, verdict, same⟩
    rw [Except.error.inj same] at other
    exact other verdict
  · exact fun unmasked => masked unmasked.1

theorem Judges.checkAttachFiles {caller : String} {fileRefs : List String}
    (denies : ∀ visits e, ¬ (fileRefs.isEmpty = true ∨ acl.check caller .attachFiles = .ok ()) →
      acl.check caller .attachFiles = .error e → Judged acl subject request visits (.error e)) :
    Judges acl subject request visits (checkAttachFiles caller fileRefs)
      fun visits _ => Steady acl visits →
        (fileRefs.isEmpty = true ∨ acl.check caller .attachFiles = .ok ()) := by
  unfold Bus.checkAttachFiles
  split
  · next empty => exact fun _ => .inl empty
  · next some =>
    refine Goes.weaken (fun visits _ told steady => .inr (told steady)) (checkCapability ?_)
    intro visits e denied
    refine denies visits e ?_ denied
    rintro (empty | passed)
    · exact some empty
    · rw [denied] at passed
      cases passed

/-- The three checks of the input, where they come before a capability that the caller
lacks. -/
theorem Judges.inputs {caller key body : String} {fileRefs : List String} {cap : Capability}
    {more : Handler Answer}
    (verdict : subject.verdict acl = .error (.aclDenied s!"{caller} lacks capability {cap.asStr}"))
    (apart : cap.asStr ≠ Capability.attachFiles.asStr)
    (masks : Unmasked acl request → InputPasses acl caller key body fileRefs)
    (rest : ∀ visits, InputPasses acl caller key body fileRefs →
      Judges acl subject request visits more
        fun visits a => Judged acl subject request visits (.ok a)) :
    Judges acl subject request visits (do
        raise (checkIdem key)
        raise (checkBody body)
        Bus.checkAttachFiles caller fileRefs
        more)
      fun visits a => Judged acl subject request visits (.ok a) := by
  have tooLarge : ∀ text, subject.verdict acl ≠ .error (.bodyTooLarge text) := by
    intro text same
    rw [verdict] at same
    cases same
  apply Goes.raised
  · intro e failed
    obtain ⟨text, rfl⟩ := checkIdem_fails failed
    refine judged_masked (fun unmasked => ?_) (tooLarge text)
    rw [(masks unmasked).1] at failed
    cases failed
  intro _ idem
  apply Goes.raised
  · intro e failed
    obtain ⟨text, rfl⟩ := checkBody_fails failed
    refine judged_masked (fun unmasked => ?_) (tooLarge text)
    rw [(masks unmasked).2.1] at failed
    cases failed
  intro _ size
  refine Judges.bind (checkAttachFiles ?_) fun visits _ attached => rest visits ⟨idem, size, attached⟩
  intro visits e missing denied
  refine judged_masked (fun unmasked => missing (masks unmasked).2.2) ?_
  rw [verdict, acl_check_denies denied]
  intro same
  apply apart
  have texts := BusError.aclDenied.inj (Except.error.inj same)
  exact (String.append_right_inj _).mp texts

/-- A caller that lacks the capability or the reach does not get past this. -/
theorem Judges.authorizeOutbound {caller target : String} {cap : Capability} {via : ReachVia}
    (capabilities : subject.capabilities acl = acl.check caller cap)
    (reach : subject.reach acl = acl.checkReach caller target via)
    (registered : acl.isRegistered target = true) (unmasked : Unmasked acl request)
    (lacks : acl.check caller cap = .ok () → acl.checkReach caller target via ≠ .ok ()) :
    Judges acl subject request visits (authorizeOutbound caller target cap via)
      fun visits _ => Steady acl visits → False := by
  refine Goes.bind Judges.currentAcl fun visits read told => ?_
  by_cases steady : Steady acl visits
  · obtain rfl := told steady
    apply Goes.raised
    · intro e denied
      exact judged_of_capabilities (capabilities.trans denied) ⟨_, acl_check_denies denied⟩ unmasked
    intro _ passed
    rw [if_pos registered]
    cases reached : read.checkReach caller target via with
    | ok _ => exact absurd reached (lacks passed)
    | error e =>
      obtain ⟨message, rfl⟩ := acl_reach_denies reached
      exact Judges.refuse (capabilities.trans passed) (reach.trans reached) unmasked
  · refine Process.Along.always (fun _ _ _ _ => trivial) fun more r => ?_
    cases r <;> exact fun steady' => absurd steady'.before steady

end Walk

section Handlers
variable [Platform] {acl : Acl} {subject : Subject} {request : Request} {α : Type}

omit [Platform] in
theorem parsed_of_wellFormed {params : Params α} {extraAllowed : List String} {p : α}
    (formed : wellFormed params extraAllowed = some p) :
    rejectClientIdentityKeys params.keys extraAllowed = .ok () ∧ params.parsed = .ok p := by
  unfold wellFormed at formed
  split at formed
  · next keys parsed =>
    obtain rfl := Option.some.inj formed
    exact ⟨keys, parsed⟩
  · cases formed

omit [Platform] in
/-- The parameters of a well-formed request pass. -/
theorem Judges.parsed {params : Params α} {extraAllowed : List String} {p : α}
    {f : α → Handler Answer} (formed : wellFormed params extraAllowed = some p)
    (rest : Judges acl subject request [] (f p)
      fun visits a => Judged acl subject request visits (.ok a)) :
    Judges acl subject request [] (do
        raise (rejectClientIdentityKeys params.keys extraAllowed)
        let p ← raise (parseParams params)
        f p)
      fun visits a => Judged acl subject request visits (.ok a) := by
  obtain ⟨keys, parsed⟩ := parsed_of_wellFormed formed
  rw [keys, parseParams, parsed]
  exact rest

omit [Platform] in
theorem capabilities_gated {caller : String} {tool : Capability} {msgType : MsgType}
    {addressee : Addressee} :
    Subject.capabilities acl ⟨caller, tool, some msgType, addressee⟩ = (do
      msgTypeGate acl caller msgType
      acl.check caller tool) := rfl

omit [Platform] in
/-- A send or a broadcast that its message type denies. -/
theorem Judges.gated {caller : String} {tool : Capability} {msgType : MsgType}
    {addressee : Addressee} {more : Handler Answer}
    (unmasked : msgTypeGate acl caller msgType ≠ .ok () → Unmasked acl request)
    (rest : ∀ visits, msgTypeGate acl caller msgType = .ok () →
      Judges acl ⟨caller, tool, some msgType, addressee⟩ request visits more
        fun visits a => Judged acl ⟨caller, tool, some msgType, addressee⟩ request visits (.ok a)) :
    Judges acl ⟨caller, tool, some msgType, addressee⟩ request [] (do
        Bus.checkMsgType caller msgType
        more)
      fun visits a => Judged acl ⟨caller, tool, some msgType, addressee⟩ request visits (.ok a) := by
  refine Judges.bind (checkMsgType ?_) fun visits _ gate => rest visits gate
  intro visits e denied
  apply judged_of_capabilities (e := e) ?_ (gate_denies denied)
  · apply unmasked
    rw [denied]
    exact fun same => by cases same
  · rw [capabilities_gated, denied]
    rfl

omit [Platform] in
/-- What a caller without the capability of the tool is told. -/
theorem verdict_lacking {caller : String} {cap : Capability}
    (capabilities : subject.capabilities acl = acl.check caller cap)
    (missing : acl.check caller cap ≠ .ok ()) :
    subject.verdict acl = .error (.aclDenied s!"{caller} lacks capability {cap.asStr}") := by
  rw [Subject.verdict, capabilities]
  cases denied : acl.check caller cap with
  | ok _ => exact absurd denied missing
  | error e =>
    rw [← acl_check_denies denied]
    rfl

theorem handle_judges (task : Nat) (agreed : request.subject = some subject)
    (registered : ∀ cell, subject.addressee = .cell cell → acl.isRegistered cell = true)
    (lacks : subject.Lacks acl) :
    Judges acl subject request [] (handle task request)
      fun visits a => Judged acl subject request visits (.ok a) := by
  cases request with
  | send caller params =>
    obtain ⟨p, formed, rfl⟩ := Option.map_eq_some_iff.mp agreed
    apply Judges.parsed formed
    apply Judges.gated
    · exact fun _ => trivial
    intro visits gate
    apply Judges.stops
    apply Judges.authorizeOutbound
    · rw [capabilities_gated, gate]
      rfl
    · rfl
    · exact registered p.toCell rfl
    · trivial
    · exact fun passed => lacks.resolve_left (not_not.mpr passed)
  | ask caller params =>
    obtain ⟨p, formed, rfl⟩ := Option.map_eq_some_iff.mp agreed
    refine Judges.parsed formed ?_
    apply Judges.stops
    apply Judges.authorizeOutbound
    · rfl
    · rfl
    · exact registered p.toCell rfl
    · trivial
    · exact fun passed => lacks.resolve_left (not_not.mpr passed)
  | reply caller params =>
    obtain ⟨p, formed, rfl⟩ := Option.map_eq_some_iff.mp agreed
    obtain ⟨keys, parsed⟩ := parsed_of_wellFormed formed
    have missing : acl.check caller .reply ≠ .ok () := lacks.resolve_right (not_not.mpr rfl)
    have unmasked : Unmasked acl (.reply caller params) ↔ InputPasses acl caller
        (p.idempotencyKey.getD "") p.body p.fileRefs := by
      obtain ⟨_, _⟩ := params
      obtain rfl := parsed
      rfl
    apply Judges.parsed formed
    apply Judges.inputs (verdict_lacking rfl missing) (by decide) unmasked.mp
    intro visits passes
    refine Judges.bind (Judges.checkCapability ?_) fun _ _ passed => absurd passed missing
    intro visits e denied
    exact judged_of_capabilities denied ⟨_, acl_check_denies denied⟩ (unmasked.mpr passes)
  | broadcast caller params =>
    obtain ⟨p, formed, rfl⟩ := Option.map_eq_some_iff.mp agreed
    obtain ⟨keys, parsed⟩ := parsed_of_wellFormed formed
    have missing : acl.check caller .broadcast ≠ .ok () := lacks.resolve_right (not_not.mpr rfl)
    have unmasked : Unmasked acl (.broadcast caller params) ↔
        (msgTypeGate acl caller (p.msgType.getD .note) = .ok () → InputPasses acl caller
          (p.idempotencyKey.getD "") p.body p.fileRefs) := by
      obtain ⟨_, _⟩ := params
      obtain rfl := parsed
      rfl
    apply Judges.parsed formed
    apply Judges.gated
    · exact fun denied => unmasked.mpr fun gate => absurd gate denied
    intro visits gate
    have capabilities : Subject.capabilities acl
        ⟨caller, .broadcast, some (p.msgType.getD .note), .everyone⟩ = acl.check caller .broadcast := by
      rw [capabilities_gated, gate]
      rfl
    apply Judges.inputs (verdict_lacking capabilities missing) (by decide)
    · exact fun fits => unmasked.mp fits gate
    intro visits passes
    refine Judges.bind Judges.currentAcl fun visits read same => ?_
    rw [same]
    apply Goes.raised
    · intro e denied
      exact judged_of_capabilities (capabilities.trans denied) ⟨_, acl_check_denies denied⟩
        (unmasked.mpr fun _ => passes)
    · exact fun _ passed => absurd passed missing
  | await caller params => cases agreed
  | inbox caller params => cases agreed
  | reportToolCorrelation caller params => cases agreed
  | opStatus caller keys => cases agreed

theorem judged_call {w : World} {t : BusTracked} (run : Run w t)
    (answered : t.config.pool[task]? = some (request, some (.done answer)))
    (agreed : request.subject = some subject) (steady : Steady acl (t.visits task))
    (registered : ∀ cell, subject.addressee = .cell cell → acl.isRegistered cell = true)
    (lacks : subject.Lacks acl) :
    Denied acl subject answer ↔ Unmasked acl request ∧ Logged acl subject (t.visits task) := by
  have program : ∀ k other, (service.program k other).Along (fun _ _ _ _ => True)
      (fun visits r => other = request → Judged acl subject request visits r) [] := by
    intro k other
    by_cases same : other = request
    · rw [same]
      refine Process.Along.weaken (fun _ _ _ _ effect => effect) (fun visits r settled _ => ?_)
        (handle_judges k agreed registered lacks)
      cases r <;> exact settled
    · exact Process.Along.always (fun _ _ _ _ => trivial) fun _ _ here => absurd here same
  have standing := System.Standing.follows program (System.standing_tracked (System.dormant w)) run
  exact standing.tasks task request _ (Nat.zero_le _) answered rfl steady

/-- Two calls with one subject, of a caller that lacks the capability or the reach, get
one and the same denial exactly if neither stops at a check of its input and the denial
of a reach can be logged. -/
theorem denied_alike_iff {w w' : World} {t t' : BusTracked} (run : Run w t) (run' : Run w' t')
    (answered : t.config.pool[task]? = some (request, some (.done answer)))
    (answered' : t'.config.pool[task']? = some (request', some (.done answer')))
    (agreed : request.subject = some subject) (agreed' : request'.subject = some subject)
    (steady : Steady acl (t.visits task)) (steady' : Steady acl (t'.visits task'))
    (registered : ∀ cell, subject.addressee = .cell cell → acl.isRegistered cell = true)
    (lacks : subject.Lacks acl) :
    (∃ message, subject.verdict acl = .error (.aclDenied message) ∧
        answer = .error (.aclDenied message) ∧ answer' = .error (.aclDenied message)) ↔
      (Unmasked acl request ∧ Logged acl subject (t.visits task)) ∧
        Unmasked acl request' ∧ Logged acl subject (t'.visits task') := by
  rw [← judged_call run answered agreed steady registered lacks,
    ← judged_call run' answered' agreed' steady' registered lacks]
  constructor
  · rintro ⟨message, verdict, first, second⟩
    exact ⟨⟨message, verdict, first⟩, message, verdict, second⟩
  · rintro ⟨⟨message, verdict, first⟩, message', verdict', second⟩
    rw [verdict] at verdict'
    obtain rfl := BusError.aclDenied.inj (Except.error.inj verdict')
    exact ⟨message, verdict, first, second⟩

end Handlers

section Sample

/-- A coder that may send and nothing else, and a protected vault. -/
def guardedAcl : Acl where
  cells := [("coder", { sampleCell with capabilities := [.send] }),
    ("vault", { sampleCell with isProtected := true })]
  sorted := by decide

/-- A daemon with the guarded ACL gets one request. -/
def denialOf (request : Request) (count : Nat) : List (Move (Input Outside) Request Event) :=
  startWith { sampleStart with acl := guardedAcl } :: .call request :: sections 0 count 1783242000

def sendToVault (fileRefs : List String) : Request :=
  .send "coder" ⟨["to", "body"], .ok ⟨"vault", "ping", fileRefs, none, none, none⟩⟩

def broadcastPing (key : String) : Request :=
  .broadcast "coder" ⟨["body", "idempotency_key"], .ok ⟨"ping", [], some key, none, none⟩⟩

instance {acl : Acl} {visits : BusVisits} : Decidable (Steady acl visits) :=
  inferInstanceAs (Decidable (∀ v ∈ visits, _))

/-- The run of one request in which no statement fails. -/
theorem sample_answered (request : Request) (count : Nat) (answer : Except BusError Answer)
    (ran : (sampleService.tracks (System.dormant blankWorld).tracked (denialOf request count)).map
      (fun t => decide (t.config.answer 0 = some answer ∧ Steady guardedAcl (t.visits 0) ∧
        ∀ v ∈ t.visits 0, v.1.faults.headD none = none)) = some true) :
    ∃ t : BusTracked, @Run .sample blankWorld t ∧
      t.config.pool[0]? = some (request, some (.done answer)) ∧ Steady guardedAcl (t.visits 0) ∧
      ∀ subject, Logged guardedAcl subject (t.visits 0) := by
  obtain ⟨t, ran, facts⟩ := Option.map_eq_some_iff.mp ran
  obtain ⟨answered, steady, faultless⟩ := of_decide_eq_true facts
  have run := System.follows_of_ran ran
  obtain ⟨up, crashed, rest⟩ := Option.bind_eq_some_iff.mp ran
  obtain ⟨calling, called, sections⟩ := Option.bind_eq_some_iff.mp rest
  obtain rfl := Option.some.inj crashed
  have call := (System.next_of_track called).1
  exact ⟨t, run, System.answered_call call (System.follows_of_ran sections).leads answered, steady,
    fun subject _ v last => faultless v (List.mem_of_getLast? last)⟩

theorem denied_alike_to_vault : ∃ t t' : BusTracked,
    @Run .sample blankWorld t ∧ @Run .sample blankWorld t' ∧ ∃ message answer answer',
      t.config.answer 0 = some answer ∧ t'.config.answer 0 = some answer' ∧
      answer = .error (.aclDenied message) ∧ answer' = .error (.aclDenied message) := by
  let _ := Platform.sample
  let denied : BusError := .aclDenied "coder lacks per-target grant to protected cell vault"
  let vault : Subject := ⟨"coder", .send, some .task, .cell "vault"⟩
  obtain ⟨t, run, answered, steady, logged⟩ :=
    sample_answered (sendToVault []) 3 (.error denied) (by decide +kernel)
  obtain ⟨t', run', answered', steady', logged'⟩ :=
    sample_answered (sendToVault ["notes.md"]) 3 (.error denied) (by decide +kernel)
  have agreed : (sendToVault []).subject = some vault := rfl
  obtain ⟨message, -, same, same'⟩ := (denied_alike_iff run run' answered answered' agreed rfl
    steady steady' (fun cell address => by cases address; decide) (.inr (by decide))).mpr
    ⟨⟨trivial, logged vault⟩, trivial, logged' vault⟩
  exact ⟨t, t', run, run', message, _, _, Config.answer_eq_some.mpr ⟨_, answered⟩,
    Config.answer_eq_some.mpr ⟨_, answered'⟩, same, same'⟩

/-- The same broadcast is denied, or found too large, depending on its key. -/
theorem key_masks_denial : ∃ t t' : BusTracked,
    @Run .sample blankWorld t ∧ @Run .sample blankWorld t' ∧
    Subject.Lacks guardedAcl ⟨"coder", .broadcast, some .note, .everyone⟩ ∧
    t.config.pool[0]? = some (broadcastPing "k1", some (.done (.error
      (.aclDenied "coder lacks capability broadcast")))) ∧
    t'.config.pool[0]? = some (broadcastPing (String.ofList (List.replicate 129 'k')),
      some (.done (.error (.bodyTooLarge "idempotency_key 129 > 128 bytes")))) ∧
    Steady guardedAcl (t.visits 0) ∧ Steady guardedAcl (t'.visits 0) ∧
    ∀ key, (broadcastPing key).subject = some ⟨"coder", .broadcast, some .note, .everyone⟩ := by
  obtain ⟨t, run, answered, steady, -⟩ := sample_answered (broadcastPing "k1") 2
    (.error (.aclDenied "coder lacks capability broadcast")) (by decide +kernel)
  obtain ⟨t', run', answered', steady', -⟩ := sample_answered
    (broadcastPing (String.ofList (List.replicate 129 'k'))) 1
    (.error (.bodyTooLarge "idempotency_key 129 > 128 bytes")) (by decide +kernel)
  exact ⟨t, t', run, run', .inl (by decide), answered, answered', steady, steady', fun _ => rfl⟩

end Sample
end Crewd.Bus
