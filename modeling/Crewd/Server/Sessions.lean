import Crewd.Server.Protocol
import Crewd.Lib.Machine
import Crewd.Audit

/-! The connections of the daemon. Each shows once who it is and then sends its requests, one
at a time; tokens are issued and revoked meanwhile. Every request is dispatched as the cell
that its own connection proved to be, and every frame is answered once, under its number. -/
namespace Crewd.Server
open Machines

/-- Where a connection is: it has yet to show who it is, it waits for a request, a handler
runs for it, or it is closed. -/
inductive Phase where
  | handshaking (peer : PeerCred)
  | reading (principal : CellPrincipal)
  | serving (principal : CellPrincipal) (req : WireRequest)
  | closed

/-- A connection, with the responses that it was sent. -/
structure Session where
  phase : Phase
  sent : List WireResponse

/-- What the connections share, with the audit events that are attempted. -/
structure Daemon where
  issuer : DiskIssuer
  registry : List String
  sessions : List Session
  audits : List AuditEventDraft

/-- A peer connects, a connection reads a frame, a handler comes to its end and its response
is written or not, or a token is revoked for the connections or changed in the files, all
while the daemon is not restarted. -/
inductive DaemonStep (host : Host) where
  | connect (peer : Option PeerCred)
  | frame (session : Nat) (frame : Except String (List UInt8)) (now : Nat)
  | answer (session : Nat) (handled : Except BusError Json) (written : Bool)
  | revoke (tokenId : String)
  | token (event : TokenEvent host) (running : event ≠ .restart)

namespace Session

def say (s : Session) (resp : WireResponse) : Session := { s with sent := s.sent ++ [resp] }

def close (s : Session) : Session := { s with phase := .closed }

end Session

section Code

def rejected (kind : String) (fromCell : Option String) (detail : Json) : AuditEventDraft :=
  ⟨kind, none, fromCell, none, "rejected", some detail⟩

def peerDetail (peer : PeerCred) : Json := .obj [
  ("gid", .num peer.gid), ("pid", (peer.pid.map Json.num).getD .null), ("uid", .num peer.uid)]

def reasonDetail (reason tokenId : String) : Json := .obj [
  ("reason", .str reason), ("token_id", .str tokenId)]

/-- The token of the principal, if it is revoked for the connections. -/
def Daemon.revokedToken (d : Daemon) (principal : CellPrincipal) : Option String :=
  principal.tokenId.filter fun tokenId => tokenId ∈ d.registry

variable [Platform] [WireReader] {host : Host}

def handshake (host : Host) (d : Daemon) (s : Session) (peer : PeerCred)
    (frame : Except String (List UInt8)) (now : Nat) : Session × List AuditEventDraft :=
  match frame with
  | .error _ => (s.close, [])
  | .ok raw =>
    match WireReader.request raw with
    | none => ((s.say (.err 0 (.internal "bad handshake frame"))).close, [])
    | some req =>
      match WireReader.proof req.params with
      | none => ((s.say (.err req.id (.internal "bad handshake params"))).close, [])
      | some proof =>
        match d.issuer.authenticate host peer proof now with
        | .error e =>
          let kind := if e.code = "E_AUTH_REJECTED" then "auth_rejected"
            else "spec_version_rejected"
          ((s.say (.err req.id e)).close, [rejected kind (some proof.cellId) (peerDetail peer)])
        | .ok principal =>
          match d.revokedToken principal with
          | some tokenId => ((s.say (.err req.id (.authRejected "revoked"))).close,
              [rejected "auth_rejected" (some principal.cellId)
                (reasonDetail "revoked_at_handshake" tokenId)])
          | none => ({ s.say (.ok req.id (.obj [("auth_level", .str "L0Token"),
              ("cell", .str principal.cellId)])) with phase := .reading principal }, [])

omit [Platform] in
/-- The dispatch loop reads a frame; an empty one ends it. -/
def serve (d : Daemon) (s : Session) (principal : CellPrincipal)
    (frame : Except String (List UInt8)) : Session × List AuditEventDraft :=
  match frame with
  | .error _ => (s.close, [])
  | .ok [] => (s.close, [])
  | .ok raw =>
    match WireReader.request raw with
    | none => (s.say (.err 0 (.internal "bad request frame")), [])
    | some req =>
      match d.revokedToken principal with
      | some tokenId => ((s.say (.err req.id (.authRejected "revoked"))).close,
          [rejected "auth_rejected" (some principal.cellId)
            (reasonDetail "revoked_live_session" tokenId)])
      | none => ({ s with phase := .serving principal req }, [])

/-- The answer to a request, given what the handler of its method came to. -/
def dispatch (req : WireRequest) (handled : Except BusError Json) : WireResponse :=
  .of req.id (if req.method ∈ methods then handled else .error (unknownMethod req.method))

def Daemon.update (d : Daemon) (session : Nat) (outcome : Session × List AuditEventDraft) :
    Daemon :=
  { d with sessions := d.sessions.set session outcome.1, audits := d.audits ++ outcome.2 }

/-- A closed connection reads no more, and one that is being served not yet. -/
def Daemon.step (d : Daemon) : DaemonStep host → Daemon
  | .connect (some peer) => { d with sessions := d.sessions ++ [⟨.handshaking peer, []⟩] }
  | .connect none => { d with
      sessions := d.sessions ++ [⟨.closed, [.err 0 (.authRejected "peercred unavailable")]⟩]
      audits := d.audits ++ [rejected "auth_rejected" none
        (.obj [("reason", .str "peercred_unavailable")])] }
  | .frame session frame now =>
    match d.sessions[session]? with
    | none => d
    | some s =>
      match s.phase with
      | .handshaking peer => d.update session (handshake host d s peer frame now)
      | .reading principal => d.update session (serve d s principal frame)
      | .serving _ _ | .closed => d
  | .answer session handled written =>
    match d.sessions[session]? with
    | none => d
    | some s =>
      match s.phase with
      | .serving principal req => d.update session ({ s.say (dispatch req handled) with
          phase := if written then .reading principal else .closed }, [])
      | .handshaking _ | .reading _ | .closed => d
  | .revoke tokenId => { d with registry := tokenId :: d.registry }
  | .token event _ => { d with issuer := event.perform d.issuer }

def Daemon.start (issuer : DiskIssuer) : Daemon := ⟨issuer, [], [], []⟩

end Code

section Looks
variable [Platform] [WireReader] {host : Host}

/-- The number that a frame is answered under. -/
def frameNumber (raw : List UInt8) : Nat := ((WireReader.request raw).map WireRequest.id).getD 0

/-- The request that a step dispatches, with the connection and the principal. -/
def Daemon.dispatches (d : Daemon) : DaemonStep host → List (Nat × CellPrincipal × WireRequest)
  | .frame session (.ok raw) _ =>
    match (d.sessions[session]?).map Session.phase, WireReader.request raw with
    | some (.reading principal), some req =>
      if raw ≠ [] ∧ d.revokedToken principal = none then [(session, principal, req)] else []
    | _, _ => []
  | _ => []

/-- The number that the frame of a step asks to be answered under, on the given connection. -/
def Daemon.asked (session : Nat) (d : Daemon) : DaemonStep host → List Nat
  | .frame other (.ok raw) _ =>
    if other = session then
      match (d.sessions[session]?).map Session.phase with
      | some (.handshaking _) => [frameNumber raw]
      | some (.reading _) => if raw = [] then [] else [frameNumber raw]
      | _ => []
    else []
  | _ => []

end Looks

section Steps
variable [Platform] [WireReader] {host : Host} {d : Daemon} {s : Session} {peer : PeerCred}
  {principal : CellPrincipal} {frame : Except String (List UInt8)} {now : Nat}

/-- What a handshake comes to. -/
inductive Shaken (host : Host) (d : Daemon) (s : Session) (peer : PeerCred)
    (frame : Except String (List UInt8)) (now : Nat) : Session → Prop where
  | lost {e : String} (unread : frame = .error e) : Shaken host d s peer frame now s.close
  | refused {raw : List UInt8} (read : frame = .ok raw) (e : BusError) :
      Shaken host d s peer frame now (s.say (.err (frameNumber raw) e)).close
  | admitted {raw : List UInt8} {req : WireRequest} {proof : ClientProof}
      {principal : CellPrincipal} (read : frame = .ok raw)
      (parsed : WireReader.request raw = some req) (shown : WireReader.proof req.params = some proof)
      (passed : d.issuer.authenticate host peer proof now = .ok principal)
      (standing : d.revokedToken principal = none) (v : Json) : Shaken host d s peer frame now
        { s.say (.ok (frameNumber raw) v) with phase := .reading principal }

theorem handshake_shaken (host : Host) (d : Daemon) (s : Session) (peer : PeerCred)
    (frame : Except String (List UInt8)) (now : Nat) :
    Shaken host d s peer frame now (handshake host d s peer frame now).1 := by
  unfold handshake
  cases frame with
  | error e => exact .lost rfl
  | ok raw =>
    dsimp only
    have number : ∀ req, WireReader.request raw = some req → req.id = frameNumber raw := by
      intro req parsed
      rw [frameNumber, parsed]
      rfl
    split
    · next unparsed =>
      have zero : frameNumber raw = 0 := by rw [frameNumber, unparsed]; rfl
      exact zero ▸ .refused rfl _
    · next req parsed =>
      rw [number req parsed]
      split
      · exact .refused rfl _
      · next proof shown =>
        split
        · exact .refused rfl _
        · next principal passed =>
          split
          · exact .refused rfl _
          · next standing => exact .admitted rfl parsed shown passed standing _

omit [Platform] in
/-- What the dispatch loop does with a frame. -/
inductive Served (d : Daemon) (s : Session) (principal : CellPrincipal)
    (frame : Except String (List UInt8)) : Session → Prop where
  | ended (nothing : ∀ raw, frame = .ok raw → raw = []) : Served d s principal frame s.close
  | refused {raw : List UInt8} (read : frame = .ok raw) (filled : raw ≠ []) (e : BusError)
      (s' : Session) (next : s' = s ∨ s' = s.close) :
      Served d s principal frame (s'.say (.err (frameNumber raw) e))
  | dispatched {raw : List UInt8} {req : WireRequest} (read : frame = .ok raw) (filled : raw ≠ [])
      (parsed : WireReader.request raw = some req) (standing : d.revokedToken principal = none) :
      Served d s principal frame { s with phase := .serving principal req }

omit [Platform] in
theorem serve_served (d : Daemon) (s : Session) (principal : CellPrincipal)
    (frame : Except String (List UInt8)) :
    Served d s principal frame (serve d s principal frame).1 := by
  unfold serve
  split
  · exact .ended (by simp)
  · exact .ended (by simp)
  · next raw filled =>
    have number : ∀ req, WireReader.request raw = some req → req.id = frameNumber raw := by
      intro req parsed
      rw [frameNumber, parsed]
      rfl
    have some' : raw ≠ [] := fun none => filled (none ▸ rfl)
    split
    · next unparsed =>
      have zero : frameNumber raw = 0 := by rw [frameNumber, unparsed]; rfl
      exact zero ▸ .refused rfl some' _ s (.inl rfl)
    · next req parsed =>
      rw [number req parsed]
      split
      · exact .refused rfl some' _ s.close (.inr rfl)
      · next standing => exact .dispatched rfl some' parsed standing

omit [Platform] in
theorem serve_dispatches {raw : List UInt8} {req : WireRequest} (filled : raw ≠ [])
    (parsed : WireReader.request raw = some req) (standing : d.revokedToken principal = none) :
    (serve d s principal (.ok raw)).1 = { s with phase := .serving principal req } := by
  unfold serve
  split
  · next none => cases none
  · next none => exact absurd (Except.ok.inj none) filled
  · next other _ same =>
    cases same
    rw [parsed, standing]

/-- What a step makes of a connection. -/
def Daemon.advance (d : Daemon) (session : Nat) (s : Session) : DaemonStep host → Session
  | .frame other frame now =>
    if other = session then
      match s.phase with
      | .handshaking peer => (handshake host d s peer frame now).1
      | .reading principal => (serve d s principal frame).1
      | .serving _ _ | .closed => s
    else s
  | .answer other handled written =>
    if other = session then
      match s.phase with
      | .serving principal req =>
        { s.say (dispatch req handled) with
          phase := if written then .reading principal else .closed }
      | .handshaking _ | .reading _ | .closed => s
    else s
  | .connect _ | .revoke _ | .token _ _ => s

theorem advance_frame (d : Daemon) (session : Nat) (s : Session)
    (frame : Except String (List UInt8)) (now : Nat) :
    d.advance session s (.frame session frame now : DaemonStep host) = match s.phase with
      | .handshaking peer => (handshake host d s peer frame now).1
      | .reading principal => (serve d s principal frame).1
      | .serving _ _ | .closed => s := if_pos rfl

theorem advance_answer (d : Daemon) (session : Nat) (s : Session)
    (handled : Except BusError Json) (written : Bool) :
    d.advance session s (.answer session handled written : DaemonStep host) = match s.phase with
      | .serving principal req =>
        { s.say (dispatch req handled) with
          phase := if written then .reading principal else .closed }
      | .handshaking _ | .reading _ | .closed => s := if_pos rfl

/-- Steps change a connection, or open a new one. -/
theorem sessions_step (d : Daemon) (step : DaemonStep host) (session : Nat) :
    (d.step step).sessions[session]? =
      match d.sessions[session]? with
      | some s => some (d.advance session s step)
      | none => match step with
        | .connect peer => if session = d.sessions.length then
            some (match peer with
              | some peer => ⟨.handshaking peer, []⟩
              | none => ⟨.closed, [.err 0 (.authRejected "peercred unavailable")]⟩) else none
        | _ => none := by
  have updated : ∀ (other : Nat) (outcome : Session × List AuditEventDraft),
      (d.update other outcome).sessions[session]? =
        if other = session then d.sessions[session]?.map fun _ => outcome.1
        else d.sessions[session]? := by
    intro other outcome
    rw [Daemon.update]
    dsimp only
    rw [List.getElem?_set']
    split
    · next same => subst same; cases d.sessions[other]? <;> rfl
    · rfl
  cases step with
  | connect peer =>
    have opened : ∀ s : Session, (d.sessions ++ [s])[session]? = match d.sessions[session]? with
        | some old => some old
        | none => if session = d.sessions.length then some s else none := by
      intro s
      rw [List.getElem?_append]
      split
      · next inside => rw [List.getElem?_eq_getElem inside]
      · next outside =>
        have beyond := Nat.le_of_not_lt outside
        rw [List.getElem?_eq_none beyond]
        by_cases last : session = d.sessions.length
        · simp [last]
        · have later : 0 < session - d.sessions.length := by omega
          simp [last, Nat.ne_of_gt later]
    cases peer with
    | none => exact opened _
    | some peer => exact opened _
  | frame other frame now =>
    by_cases same : other = session
    · subst same
      rw [Daemon.step]
      cases found : d.sessions[other]? with
      | none => exact found
      | some s =>
        dsimp only
        rw [advance_frame]
        cases s.phase with
        | handshaking peer => simp [updated, found]
        | reading principal => simp [updated, found]
        | serving principal req => exact found
        | closed => exact found
    · have kept : (d.step (.frame other frame now : DaemonStep host)).sessions[session]? =
          d.sessions[session]? := by
        rw [Daemon.step]
        split
        · rfl
        · split <;> simp [updated, same]
      have still : ∀ s, d.advance session s (.frame other frame now : DaemonStep host) = s :=
        fun s => if_neg same
      rw [kept]
      cases d.sessions[session]? <;> simp [still]
  | answer other handled written =>
    by_cases same : other = session
    · subst same
      rw [Daemon.step]
      cases found : d.sessions[other]? with
      | none => exact found
      | some s =>
        dsimp only
        rw [advance_answer]
        cases s.phase with
        | serving principal req => simp [updated, found]
        | handshaking peer => exact found
        | reading principal => exact found
        | closed => exact found
    · have kept : (d.step (.answer other handled written : DaemonStep host)).sessions[session]? =
          d.sessions[session]? := by
        rw [Daemon.step]
        split
        · rfl
        · split <;> simp [updated, same]
      have still : ∀ s, d.advance session s (.answer other handled written : DaemonStep host) = s :=
        fun s => if_neg same
      rw [kept]
      cases d.sessions[session]? <;> simp [still]
  | revoke tokenId =>
    rw [Daemon.step]
    cases d.sessions[session]? <;> rfl
  | token event running =>
    rw [Daemon.step]
    cases d.sessions[session]? <;> rfl

end Steps

section Answers
variable [Platform] [WireReader] {host : Host}

/-- The number of the request that a handler runs for. -/
def Session.owed (s : Session) : List Nat :=
  match s.phase with
  | .serving _ req => [req.id]
  | _ => []

omit [Platform] [WireReader] in
theorem dispatch_id (req : WireRequest) (handled : Except BusError Json) :
    (dispatch req handled).id = req.id := by
  unfold dispatch
  split
  · cases handled <;> rfl
  · rfl

def unavailable : Session := ⟨.closed, [.err 0 (.authRejected "peercred unavailable")]⟩

/-- Frames and answers keep the account of a connection. -/
theorem advance_account (d : Daemon) (session : Nat) (s : Session) (step : DaemonStep host)
    (found : d.sessions[session]? = some s) :
    (d.advance session s step).sent.map WireResponse.id ++ (d.advance session s step).owed =
      s.sent.map WireResponse.id ++ s.owed ++ d.asked session step := by
  have still : d.advance session s step = s → d.asked session step = [] →
      (d.advance session s step).sent.map WireResponse.id ++ (d.advance session s step).owed =
        s.sent.map WireResponse.id ++ s.owed ++ d.asked session step := by
    intro same none
    rw [same, none, List.append_nil]
  have numbers : ∀ raw now, d.asked session (.frame session (.ok raw) now : DaemonStep host) =
      match s.phase with
      | .handshaking _ => [frameNumber raw]
      | .reading _ => if raw = [] then [] else [frameNumber raw]
      | _ => [] := by
    intro raw now
    rw [Daemon.asked, if_pos rfl, found, Option.map_some]
    cases s.phase <;> rfl
  cases step with
  | connect peer => exact still rfl rfl
  | revoke tokenId => exact still rfl rfl
  | token event running => exact still rfl rfl
  | frame other frame now =>
    by_cases same : other = session
    · subst same
      obtain ⟨phase, sent⟩ := s
      cases phase with
      | handshaking peer =>
        have shaken := handshake_shaken host d ⟨.handshaking peer, sent⟩ peer frame now
        rw [advance_frame]
        dsimp only
        generalize (handshake host d ⟨.handshaking peer, sent⟩ peer frame now).1 = next at shaken ⊢
        cases shaken with
        | lost unread =>
          subst unread
          exact (List.append_nil _).symm
        | refused read e =>
          subst read
          rw [numbers]
          simp [Session.say, Session.close, Session.owed, WireResponse.err]
        | admitted read _ _ _ _ v =>
          subst read
          rw [numbers]
          simp [Session.say, Session.owed, WireResponse.ok]
      | reading principal =>
        have served := serve_served d ⟨.reading principal, sent⟩ principal frame
        rw [advance_frame]
        dsimp only
        generalize (serve d ⟨.reading principal, sent⟩ principal frame).1 = next at served ⊢
        cases served with
        | ended nothing =>
          cases frame with
          | error e => exact (List.append_nil _).symm
          | ok raw =>
            rw [numbers, nothing raw rfl]
            exact (List.append_nil _).symm
        | refused read filled e s' next =>
          subst read
          rw [numbers]
          rcases next with rfl | rfl <;>
            simp [Session.say, Session.close, Session.owed, WireResponse.err, filled]
        | dispatched read filled parsed =>
          subst read
          rw [numbers]
          simp [Session.owed, frameNumber, parsed, filled]
      | serving principal req =>
        apply still
        · rw [advance_frame]
        · cases frame with
          | error e => rfl
          | ok raw => exact numbers raw now
      | closed =>
        apply still
        · rw [advance_frame]
        · cases frame with
          | error e => rfl
          | ok raw => exact numbers raw now
    · apply still (if_neg same)
      cases frame with
      | error e => rfl
      | ok raw => exact if_neg same
  | answer other handled written =>
    by_cases same : other = session
    · subst same
      obtain ⟨phase, sent⟩ := s
      cases phase with
      | serving principal req =>
        rw [advance_answer]
        have number := dispatch_id req handled
        cases written <;> simp [Session.say, Session.owed, Daemon.asked, number]
      | handshaking peer => exact still (by rw [advance_answer]) rfl
      | reading principal => exact still (by rw [advance_answer]) rfl
      | closed => exact still (by rw [advance_answer]) rfl
    · exact still (if_neg same) rfl

/-- What was sent to a connection, and is owed to it, against the numbers it asked under. -/
def Accounted (asked : List Nat) : Option Session → Prop
  | none => asked = []
  | some s => (s.sent.map WireResponse.id ++ s.owed = asked) ∨ (s = unavailable ∧ asked = [])

theorem Accounted.step {asked : List Nat} {d : Daemon} {session : Nat}
    (accounted : Accounted asked d.sessions[session]?) (step : DaemonStep host) :
    Accounted (asked ++ d.asked session step) (d.step step).sessions[session]? := by
  rw [sessions_step]
  cases found : d.sessions[session]? with
  | none =>
    rw [found] at accounted
    have silent : d.asked session step = [] := by
      cases step with
      | connect | answer | revoke | token => rfl
      | frame other frame now =>
        cases frame with
        | error e => rfl
        | ok raw => simp [Daemon.asked, found]
    rw [silent, List.append_nil, show asked = [] from accounted]
    cases step with
    | frame | answer | revoke | token => rfl
    | connect peer =>
      dsimp only
      split
      · cases peer with
        | none => exact .inr ⟨rfl, rfl⟩
        | some peer => exact .inl rfl
      · rfl
  | some s =>
    rw [found] at accounted
    rcases accounted with account | ⟨rfl, empty⟩
    · exact .inl (by rw [advance_account d session s step found, account])
    · have shut : d.advance session unavailable step = unavailable := by
        cases step with
        | connect | revoke | token => rfl
        | frame | answer => exact ite_self _
      have silent : d.asked session step = [] := by
        cases step with
        | connect | answer | revoke | token => rfl
        | frame other frame now =>
          cases frame with
          | error e => rfl
          | ok raw => simp [Daemon.asked, found, unavailable]
      dsimp only
      rw [shut, silent, empty]
      exact .inr ⟨rfl, rfl⟩

/-- Each frame of a connection is answered once, in order and under its own number, but for
the one that a handler still runs for. -/
theorem frames_answered_in_order (issuer : DiskIssuer) (steps : List (DaemonStep host))
    (session : Nat) {s : Session}
    (found : (after Daemon.step (.start issuer) steps).sessions[session]? = some s) :
    (s.sent.map WireResponse.id ++ s.owed =
        along Daemon.step (Daemon.asked session) (.start issuer) steps) ∨
      (s = unavailable ∧ along Daemon.step (Daemon.asked session) (.start issuer) steps = []) := by
  have accounted : ∀ past : List (DaemonStep host),
      Accounted (along Daemon.step (Daemon.asked session) (.start issuer) past)
        (after Daemon.step (.start issuer) past).sessions[session]? := by
    intro past
    induction past using List.reverseRecOn with
    | nil => rfl
    | append_singleton past step ih =>
      rw [along_concat, after_concat]
      exact ih.step step
  have account := accounted steps
  rw [found] at account
  exact account

end Answers

section Principals
variable [Platform] [WireReader] {host : Host} {issuer : DiskIssuer} {past : List (DaemonStep host)}
  {session : Nat} {principal : CellPrincipal}

/-- The connection showed that it is the principal, when it had yet to show who it is. -/
def Admitted (issuer : DiskIssuer) (past : List (DaemonStep host)) (session : Nat)
    (principal : CellPrincipal) : Prop :=
  ∃ before raw now later req proof peer, past = before ++ .frame session (.ok raw) now :: later ∧
    (after Daemon.step (.start issuer) before).sessions[session]? = some ⟨.handshaking peer, []⟩ ∧
    WireReader.request raw = some req ∧ WireReader.proof req.params = some proof ∧
    (after Daemon.step (.start issuer) before).issuer.authenticate host peer proof now = .ok principal

theorem Admitted.later (admitted : Admitted issuer past session principal)
    (step : DaemonStep host) : Admitted issuer (past ++ [step]) session principal := by
  obtain ⟨before, raw, now, since, req, proof, peer, rfl, shown⟩ := admitted
  exact ⟨before, raw, now, since ++ [step], req, proof, peer, by simp, shown⟩

/-- Connections that have yet to show who they are were told nothing, and those that are read
and served have shown it. -/
def Proven (issuer : DiskIssuer) (past : List (DaemonStep host)) (session : Nat) (s : Session) :
    Prop :=
  match s.phase with
  | .handshaking _ => s.sent = []
  | .reading principal | .serving principal _ => Admitted issuer past session principal
  | .closed => True

theorem Proven.later {s : Session} (proven : Proven issuer past session s) (step : DaemonStep host) :
    Proven issuer (past ++ [step]) session s := by
  obtain ⟨phase, sent⟩ := s
  cases phase with
  | handshaking peer => exact proven
  | reading principal => exact Admitted.later proven step
  | serving principal req => exact Admitted.later proven step
  | closed => trivial

theorem Proven.advance {s : Session} (proven : Proven issuer past session s)
    (found : (after Daemon.step (.start issuer) past).sessions[session]? = some s)
    (step : DaemonStep host) : Proven issuer (past ++ [step]) session
      ((after Daemon.step (.start issuer) past).advance session s step) := by
  have kept := proven.later step
  cases step with
  | connect peer => exact kept
  | revoke tokenId => exact kept
  | token event running => exact kept
  | frame other frame now =>
    by_cases same : other = session
    · subst same
      rw [advance_frame]
      obtain ⟨phase, sent⟩ := s
      cases phase with
      | handshaking peer =>
        dsimp only
        have shaken := handshake_shaken host (after Daemon.step (.start issuer) past)
          ⟨.handshaking peer, sent⟩ peer frame now
        generalize (handshake host (after Daemon.step (.start issuer) past)
          ⟨.handshaking peer, sent⟩ peer frame now).1 = next at shaken ⊢
        cases shaken with
        | lost unread => trivial
        | refused read e => trivial
        | admitted read parsed shown passed standing v =>
          subst read
          rw [show sent = [] from proven] at found
          exact ⟨past, _, now, [], _, _, peer, rfl, found, parsed, shown, passed⟩
      | reading principal =>
        dsimp only
        have served := serve_served (after Daemon.step (.start issuer) past)
          ⟨.reading principal, sent⟩ principal frame
        generalize (serve (after Daemon.step (.start issuer) past)
          ⟨.reading principal, sent⟩ principal frame).1 = next at served ⊢
        cases served with
        | ended nothing => trivial
        | refused read filled e s' next =>
          rcases next with rfl | rfl
          · exact kept
          · trivial
        | dispatched read filled parsed standing => exact kept
      | serving principal req => exact kept
      | closed => exact kept
    · rw [show (after Daemon.step (.start issuer) past).advance session s (.frame other frame now) = s
        from if_neg same]
      exact kept
  | answer other handled written =>
    by_cases same : other = session
    · subst same
      rw [advance_answer]
      obtain ⟨phase, sent⟩ := s
      cases phase with
      | serving principal req =>
        cases written with
        | false => trivial
        | true => exact kept
      | handshaking peer => exact kept
      | reading principal => exact kept
      | closed => exact kept
    · rw [show (after Daemon.step (.start issuer) past).advance session s
        (.answer other handled written) = s from if_neg same]
      exact kept

theorem proven (issuer : DiskIssuer) (past : List (DaemonStep host)) (session : Nat) :
    ∀ s, (after Daemon.step (.start issuer) past).sessions[session]? = some s →
      Proven issuer past session s := by
  induction past using List.reverseRecOn with
  | nil =>
    intro s found
    cases found
  | append_singleton past step ih =>
    intro s found
    rw [after_concat, sessions_step] at found
    cases here : (after Daemon.step (.start issuer) past).sessions[session]? with
    | some before =>
      rw [here] at found
      cases found
      exact (ih before here).advance here step
    | none =>
      rw [here] at found
      cases step with
      | connect peer =>
        dsimp only at found
        split at found
        · cases peer <;> (cases found; trivial)
        · cases found
      | frame | answer | revoke | token => cases found

/-- The tokens that are revoked for the connections are those that were named. -/
theorem registry_revoked (issuer : DiskIssuer) (past : List (DaemonStep host)) (tokenId : String) :
    tokenId ∈ (after Daemon.step (.start issuer) past).registry ↔ .revoke tokenId ∈ past := by
  induction past using List.reverseRecOn with
  | nil => simp [Daemon.start]
  | append_singleton past step ih =>
    rw [after_concat, List.mem_append, ← ih]
    have updated : ∀ (d : Daemon) (session : Nat) (outcome : Session × List AuditEventDraft),
        (d.update session outcome).registry = d.registry := fun _ _ _ => rfl
    cases step with
    | connect peer => cases peer <;> simp [Daemon.step]
    | frame session frame now =>
      rw [Daemon.step]
      split
      · simp
      · split <;> simp [updated]
    | answer session handled written =>
      rw [Daemon.step]
      split
      · simp
      · split <;> simp [updated]
    | revoke other => simp [Daemon.step, or_comm]
    | token event running => simp [Daemon.step]

omit [Platform] in
/-- What it takes for a request to be dispatched. -/
theorem dispatched_inv {d : Daemon} {step : DaemonStep host} {req : WireRequest}
    (dispatched : (session, principal, req) ∈ d.dispatches step) :
    ∃ raw now sent, step = .frame session (.ok raw) now ∧
      d.sessions[session]? = some ⟨.reading principal, sent⟩ ∧
      WireReader.request raw = some req ∧ d.revokedToken principal = none := by
  unfold Daemon.dispatches at dispatched
  split at dispatched
  · next other raw now =>
    split at dispatched
    · next phase request reading parsed =>
      split at dispatched
      · next standing =>
        obtain ⟨rfl, rfl, rfl⟩ : session = other ∧ principal = _ ∧ req = _ := by
          simpa using dispatched
        obtain ⟨⟨phase, sent⟩, found, rfl⟩ := Option.map_eq_some_iff.mp reading
        exact ⟨raw, now, sent, rfl, found, parsed, standing.2⟩
      · cases dispatched
    · cases dispatched
  · cases dispatched

/-- A request is dispatched by the step that sets its connection to being served. -/
theorem dispatched_iff {d : Daemon} {step : DaemonStep host} {req : WireRequest} :
    (session, principal, req) ∈ d.dispatches step ↔ ∃ before now,
      d.sessions[session]? = some before ∧ before.phase = .reading principal ∧
      (d.step step).sessions[session]? = some now ∧ now.phase = .serving principal req := by
  constructor
  · intro dispatched
    obtain ⟨raw, now, sent, rfl, found, parsed, standing⟩ := dispatched_inv dispatched
    have filled : raw ≠ [] := by
      rintro rfl
      simp [Daemon.dispatches, found, parsed] at dispatched
    refine ⟨_, ⟨.serving principal req, sent⟩, found, rfl, ?_, rfl⟩
    rw [sessions_step, found]
    dsimp only
    rw [advance_frame]
    dsimp only
    rw [serve_dispatches filled parsed standing]
  · rintro ⟨before, now, found, reading, after, serving⟩
    obtain ⟨phase, sent⟩ := before
    obtain rfl := reading
    rw [sessions_step, found] at after
    obtain rfl := Option.some.inj after
    cases step with
    | connect | revoke | token => cases serving
    | answer other handled written =>
      rw [Daemon.advance] at serving
      dsimp only at serving
      rw [ite_self] at serving
      cases serving
    | frame other frame now =>
      by_cases same : other = session
      · subst same
        rw [advance_frame] at serving
        dsimp only at serving
        have served := serve_served d ⟨.reading principal, sent⟩ principal frame
        generalize (serve d ⟨.reading principal, sent⟩ principal frame).1 = next at served serving
        cases served with
        | ended => cases serving
        | refused _ _ _ s' kept => rcases kept with rfl | rfl <;> cases serving
        | dispatched read filled parsed standing =>
          cases serving
          subst read
          simp [Daemon.dispatches, found, parsed, filled, standing]
      · rw [Daemon.advance, if_neg same] at serving
        cases serving

/-- Every request is dispatched as the principal that its own connection showed to be, and
never once its token is revoked for the connections. -/
theorem dispatched_as_admitted (issuer : DiskIssuer) (past : List (DaemonStep host))
    (step : DaemonStep host) {req : WireRequest}
    (dispatched : (session, principal, req) ∈
      (after Daemon.step (.start issuer) past).dispatches step) :
    Admitted issuer past session principal ∧
      ∀ tokenId, principal.tokenId = some tokenId → .revoke tokenId ∉ past := by
  obtain ⟨raw, now, sent, _, reading, _, standing⟩ := dispatched_inv dispatched
  constructor
  · exact proven issuer past session _ reading
  · intro tokenId named revoked
    rw [Daemon.revokedToken, named] at standing
    have listed := (registry_revoked issuer past tokenId).mpr revoked
    simp [listed] at standing

/-- What happened to the tokens while the daemon ran, the newest first. -/
def tokens (past : List (DaemonStep host)) : List (TokenEvent host) :=
  (past.filterMap fun step => match step with
    | .token event _ => some event
    | _ => none).reverse

theorem issuer_tokens (earlier : List (TokenEvent host)) (past : List (DaemonStep host)) :
    (after Daemon.step (.start (DiskIssuer.after earlier)) past).issuer =
      DiskIssuer.after (tokens past ++ earlier) := by
  induction past using List.reverseRecOn with
  | nil => rfl
  | append_singleton past step ih =>
    have updated : ∀ (d : Daemon) (session : Nat) (outcome : Session × List AuditEventDraft),
        (d.update session outcome).issuer = d.issuer := fun _ _ _ => rfl
    rw [after_concat]
    cases step with
    | connect peer => cases peer <;> simpa [Daemon.step, tokens] using ih
    | frame session frame now =>
      have kept : tokens (past ++ [.frame session frame now]) = tokens past := by simp [tokens]
      rw [kept, ← ih, Daemon.step]
      split
      · rfl
      · split <;> simp [updated]
    | answer session handled written =>
      have kept : tokens (past ++ [.answer session handled written]) = tokens past := by
        simp [tokens]
      rw [kept, ← ih, Daemon.step]
      split
      · rfl
      · split <;> simp [updated]
    | revoke tokenId => simpa [Daemon.step, tokens] using ih
    | token event running =>
      have one : tokens (past ++ [.token event running]) = event :: tokens past := by simp [tokens]
      rw [one, Daemon.step, ih]
      rfl

omit [WireReader] in
theorem issued_since {cellId : String} {history : List (TokenEvent host)}
    (issued : Issued cellId history) (since : List (TokenEvent host)) :
    Issued cellId (since ++ history) := by
  induction since with
  | nil => exact issued
  | cons event since ih => exact .inr ih

/-- A cell whose token file is no other's has requests dispatched only after a credential was
handed out in its name. -/
theorem dispatched_cell_issued (names : Set String) (earlier : List (TokenEvent host))
    (past : List (DaemonStep host)) (step : DaemonStep host) {req : WireRequest}
    (within : ∀ event ∈ tokens past ++ earlier, event.Names names)
    (exclusive : host.Exclusive names principal.cellId)
    (dispatched : (session, principal, req) ∈
      (after Daemon.step (.start (DiskIssuer.after earlier)) past).dispatches step) :
    Issued principal.cellId (tokens past ++ earlier) := by
  obtain ⟨raw, now, sent, _, reading, _, _⟩ := dispatched_inv dispatched
  obtain ⟨before, raw, now, later, req, proof, peer, rfl, _, _, _, passed⟩ :
    Admitted _ past session principal := proven _ past session _ reading
  have since : tokens (before ++ .frame session (.ok raw) now :: later) =
      tokens later ++ tokens before := by simp [tokens]
  rw [since, List.append_assoc] at within ⊢
  rw [issuer_tokens] at passed
  obtain ⟨same, record, read⟩ := authenticate_ok passed
  obtain ⟨path, found, held⟩ := Option.bind_eq_some_iff.mp read
  rw [← same] at found
  obtain ⟨inside, alone⟩ := exclusive path found
  obtain ⟨other, issued, leads⟩ := owned (tokens before ++ earlier) path record inside held
  have among : ∀ event ∈ tokens before ++ earlier, event.Names names :=
    fun event member => within event (List.mem_append_right _ member)
  obtain rfl := alone other (issued.named among) leads
  exact issued_since issued (tokens later)

end Principals

section Samples

/-- Mesh shows its token and asks for its inbox. -/
def hello : WireRequest := ⟨1, "handshake", .obj [
  ("cell_id", .str "mesh"), ("spec_version", .str specVersion), ("token", .str "5f3a")]⟩

def inboxAsked : WireRequest := ⟨2, "cell_inbox", .obj [("limit", .num 20)]⟩

def meshArrives : List (DaemonStep sampleHost) :=
  [.connect (some ⟨1000, 1000, none⟩), .frame 0 (.ok hello.line) 1783242060]

def meshPrincipal : CellPrincipal :=
  ⟨"mesh", .l0Token, some 1000, some 1000, none, false, some "0a01"⟩

theorem mesh_shaken (sessions : List Session) : let _ := Platform.sample
    let _ := WireReader.ofWritten
    handshake sampleHost ⟨DiskIssuer.after meshIssued, [], sessions, []⟩
      ⟨.handshaking ⟨1000, 1000, none⟩, []⟩ ⟨1000, 1000, none⟩ (.ok hello.line) 1783242060 =
        (⟨.reading meshPrincipal,
          [.ok 1 (.obj [("auth_level", .str "L0Token"), ("cell", .str "mesh")])]⟩, []) := by
  let _ := Platform.sample
  let _ := WireReader.ofWritten
  have parsed : WireReader.request hello.line = some hello := ofWritten_request hello
  have shown : WireReader.proof hello.params = some ⟨"mesh", "5f3a", specVersion⟩ := rfl
  have passed : (DiskIssuer.after meshIssued).authenticate sampleHost ⟨1000, 1000, none⟩
      ⟨"mesh", "5f3a", specVersion⟩ 1783242060 = .ok meshPrincipal := by
    decide +kernel
  intro _ _
  unfold handshake
  dsimp only
  rw [parsed]
  dsimp only
  rw [shown]
  dsimp only
  rw [passed]
  rfl

theorem mesh_reading : let _ := Platform.sample; let _ := WireReader.ofWritten
    (after Daemon.step (.start (DiskIssuer.after meshIssued)) meshArrives) =
      ⟨DiskIssuer.after meshIssued, [], [⟨.reading meshPrincipal,
        [.ok 1 (.obj [("auth_level", .str "L0Token"), ("cell", .str "mesh")])]⟩], []⟩ := by
  let _ := Platform.sample
  let _ := WireReader.ofWritten
  change Daemon.update _ 0 (handshake _ _ _ _ _ _) = _
  exact (congrArg (Daemon.update _ 0) (mesh_shaken _)).trans rfl

/-- One hello is answered. -/
theorem hello_answered : let _ := Platform.sample; let _ := WireReader.ofWritten
    along Daemon.step (Daemon.asked 0) (.start (DiskIssuer.after meshIssued)) meshArrives = [1] := by
  let _ := Platform.sample
  let _ := WireReader.ofWritten
  have found : (after Daemon.step (.start (DiskIssuer.after meshIssued)) meshArrives).sessions[0]? =
      some ⟨.reading meshPrincipal,
        [.ok 1 (.obj [("auth_level", .str "L0Token"), ("cell", .str "mesh")])]⟩ :=
    congrArg (fun d : Daemon => d.sessions[0]?) mesh_reading
  have account := frames_answered_in_order (DiskIssuer.after meshIssued) meshArrives 0 found
  exact (account.resolve_right fun silent => by cases silent.1).symm

theorem mesh_dispatches : let _ := Platform.sample; let _ := WireReader.ofWritten
    (0, meshPrincipal, inboxAsked) ∈ (after Daemon.step (.start (DiskIssuer.after meshIssued))
      meshArrives).dispatches (.frame 0 (.ok inboxAsked.line) 1783242061 : DaemonStep sampleHost) := by
  let _ := Platform.sample
  let _ := WireReader.ofWritten
  have parsed : WireReader.request inboxAsked.line = some inboxAsked := ofWritten_request inboxAsked
  have filled : inboxAsked.line ≠ [] := by decide +kernel
  intro _ _
  rw [show after Daemon.step (.start (DiskIssuer.after meshIssued)) meshArrives = _ from mesh_reading]
  simp [Daemon.dispatches, parsed, filled, Daemon.revokedToken]

theorem mesh_dispatched_as_admitted : let _ := Platform.sample; let _ := WireReader.ofWritten
    Admitted (DiskIssuer.after meshIssued) meshArrives 0 meshPrincipal :=
  let _ := Platform.sample
  let _ := WireReader.ofWritten
  (dispatched_as_admitted _ meshArrives _ mesh_dispatches).1

theorem mesh_dispatched_issued : let _ := Platform.sample; let _ := WireReader.ofWritten
    Issued meshPrincipal.cellId (tokens meshArrives ++ meshIssued) := by
  let _ := Platform.sample
  let _ := WireReader.ofWritten
  have within : ∀ event ∈ tokens meshArrives ++ meshIssued,
      event.Names {name | '/' ∉ name.toList} := by
    simp [tokens, meshArrives, meshIssued, TokenEvent.Names]
  have exclusive : sampleHost.Exclusive {name | '/' ∉ name.toList} meshPrincipal.cellId :=
    plain_exclusive sampleHost ⟨"mesh", by decide⟩
  exact dispatched_cell_issued _ meshIssued meshArrives
    (.frame 0 (.ok inboxAsked.line) 1783242061) within exclusive mesh_dispatches

end Samples
end Crewd.Server
