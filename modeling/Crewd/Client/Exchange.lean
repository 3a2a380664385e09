import Crewd.Server.Sessions

/-! A client and its connection. Requests and answers are bytes under way, which the two sides
read in pieces as they come; the client sends nothing while it waits and never looks at the
number of an answer. What it returns for a call is the answer to this call, or a failure. -/
namespace Crewd
open Server Machines

section Turns

/-- What a call of the reader returns without a read, if anything. -/
def FrameReader.turn (reader : FrameReader) (max : Nat) :
    Option (Except String (List UInt8) × FrameReader) :=
  match reader.carry.idxOf? newline with
  | some pos => some (.ok (reader.carry.take pos), ⟨reader.carry.drop (pos + 1)⟩)
  | none =>
    if reader.carry.length > max then some (.error "frame too large", reader) else none

theorem readBoundedLine_turn (max : Nat) (reader : FrameReader) (stream : Reads) :
    reader.readBoundedLine max stream = match reader.turn max, stream with
      | some (line, after), _ => (line, after, stream)
      | none, [] => (.ok reader.carry, ⟨[]⟩, [])
      | none, .error e :: later => (.error e, reader, later)
      | none, .ok chunk :: later =>
        if chunk.isEmpty then (.ok reader.carry, ⟨[]⟩, later)
        else FrameReader.readBoundedLine max ⟨reader.carry ++ chunk⟩ later := by
  rw [FrameReader.readBoundedLine.eq_def, FrameReader.turn]
  cases reader.carry.idxOf? newline with
  | some pos => rfl
  | none =>
    dsimp only
    split
    · rfl
    · cases stream with
      | nil => rfl
      | cons read later => cases read <;> rfl

/-- A line that is under way is returned once it is there, and nothing else is. -/
theorem turn_line {reader : FrameReader} {more line : List UInt8} {max : Nat}
    (free : newline ∉ line) (whole : reader.carry ++ more = line ++ [newline])
    (fits : line.length ≤ max) :
    reader.turn max = none ∨ reader.turn max = some (.ok line, ⟨[]⟩) ∧ more = [] := by
  unfold FrameReader.turn
  cases found : reader.carry.idxOf? newline with
  | none =>
    have clean : newline ∉ reader.carry := List.idxOf?_eq_none_iff.mp found
    have short := FrameReader.carry_short clean whole
    exact .inl (if_neg (by omega))
  | some pos =>
    have split : reader.carry = reader.carry.take pos ++ newline :: reader.carry.drop (pos + 1) := by
      obtain ⟨inside, here, _⟩ := List.idxOf?_eq_some_iff.mp found
      rw [← here, List.getElem_cons_drop, List.take_append_drop]
    obtain ⟨clean, _⟩ := idxOf?_split found
    rw [split, List.append_assoc, List.cons_append] at whole
    obtain ⟨same, tail⟩ := separator_split clean free whole
    obtain ⟨rest, none⟩ := List.append_eq_nil_iff.mp tail
    exact .inr ⟨by dsimp only; rw [same, rest], none⟩

theorem turn_whole {line : List UInt8} {max : Nat} (free : newline ∉ line)
    (fits : line.length ≤ max) :
    FrameReader.turn ⟨line ++ [newline]⟩ max = some (.ok line, ⟨[]⟩) := by
  have whole : (⟨line ++ [newline]⟩ : FrameReader).carry ++ [] = line ++ [newline] :=
    List.append_nil _
  rcases turn_line free whole fits with none | ⟨turned, _⟩
  · unfold FrameReader.turn at none
    split at none
    · cases none
    · next missing => exact absurd (by simp) (List.idxOf?_eq_none_iff.mp missing)
  · exact turned

namespace Client

/-- One read of `readLine`: the line, a failure, or what there is of it so far. -/
def readTurn (buf chunk : List UInt8) : Except WireError (List UInt8) ⊕ List UInt8 :=
  match chunk.idxOf? newline with
  | some pos => .inl (.ok (buf ++ chunk.take pos))
  | none =>
    if (buf ++ chunk).length > maxFrame then .inl (.error ⟨"E_INTERNAL", "frame too large"⟩)
    else .inr (buf ++ chunk)

theorem readLine_turn {chunk : List UInt8} (filled : chunk ≠ []) (buf : List UInt8)
    (later : List (Except String (List UInt8))) :
    readLine buf (.ok chunk :: later) = match readTurn buf chunk with
      | .inl line => line
      | .inr more => readLine more later := by
  unfold readTurn
  rw [readLine, if_neg (by simpa using filled)]
  cases chunk.idxOf? newline with
  | some pos => rfl
  | none =>
    dsimp only
    split <;> rfl

/-- A part of a line that fits is read, or ends the line. -/
theorem readTurn_line {buf chunk more line : List UInt8} (free : newline ∉ line)
    (clean : newline ∉ buf) (fits : line.length ≤ maxFrame)
    (whole : buf ++ chunk ++ more = line ++ [newline]) :
    (readTurn buf chunk = .inl (.ok line) ∧ more = []) ∨
      readTurn buf chunk = .inr (buf ++ chunk) ∧ newline ∉ buf ++ chunk := by
  unfold readTurn
  cases found : chunk.idxOf? newline with
  | some pos =>
    have split : chunk = chunk.take pos ++ newline :: chunk.drop (pos + 1) := by
      obtain ⟨inside, here, _⟩ := List.idxOf?_eq_some_iff.mp found
      rw [← here, List.getElem_cons_drop, List.take_append_drop]
    obtain ⟨before, _⟩ := idxOf?_split found
    have ended : (buf ++ chunk.take pos) ++ newline :: (chunk.drop (pos + 1) ++ more) =
        line ++ newline :: [] := by
      rw [← whole]
      nth_rewrite 3 [split]
      simp
    obtain ⟨same, tail⟩ := separator_split (by simp [clean, before]) free ended
    exact .inl ⟨by dsimp only; rw [same], (List.append_eq_nil_iff.mp tail).2⟩
  | none =>
    have open' : newline ∉ buf ++ chunk := by
      simpa [clean] using List.idxOf?_eq_none_iff.mp found
    have short := FrameReader.carry_short open' whole
    exact .inr ⟨if_neg (by omega), open'⟩

end Client
end Turns

namespace Client

/-- The two ends of a connection and the bytes between them. The client has read a part of the
answer that it waits for; what was asked, answered and returned is remembered. -/
structure Link where
  waiting : Option (List UInt8)
  requests : List UInt8
  reader : FrameReader
  session : Session
  answers : List UInt8
  asked : List WireRequest
  answered : List (Option WireRequest × WireResponse)
  returned : List (Except WireError Json)

/-- The client connects, calls, or reads; the daemon reads, takes a frame, or answers for a
handler, while its other connections do what they will; or the connection is lost and some of
the answers with it. -/
inductive LinkStep where
  | connect (proof : ClientProof)
  | call (method : String) (params : Json)
  | read (size : Nat)
  | hear (size : Nat)
  | frame (daemon : Daemon) (now : Nat)
  | answer (daemon : Daemon) (handled : Except BusError Json) (written : Bool)
  | lose (kept : Nat)

section Code

def connection (proof : ClientProof) : WireRequest := ⟨1, "handshake", .obj [
  ("cell_id", .str proof.cellId), ("spec_version", .str proof.specVersion),
  ("token", .str proof.token)]⟩

/-- What a client makes of a response. -/
def heardAs (resp : WireResponse) : Except WireError Json :=
  match resp.error with
  | some e => .error e
  | none => .ok (resp.result.getD .null)

/-- The end of `call`, given what was read. -/
def received [WireReader] (line : Except WireError (List UInt8)) : Except WireError Json :=
  match line with
  | .error e => .error e
  | .ok raw =>
    match WireReader.response raw with
    | .error e => .error ⟨"E_INTERNAL", e⟩
    | .ok resp => heardAs resp

/-- The bound of the next frame, if one is read. -/
def bound (s : Session) : Option Nat :=
  match s.phase with
  | .handshaking _ => some maxHandshakeBytes
  | .reading _ => some maxFrameBytes
  | .serving _ _ | .closed => none

def shut (s : Session) : Bool :=
  match s.phase with
  | .closed => true
  | _ => false

def onLines (said : List WireResponse) : List UInt8 :=
  said.flatMap fun resp => resp.line ++ [newline]

namespace Link

def ask (l : Link) (req : WireRequest) : Link :=
  match l.waiting with
  | some _ => l
  | none =>
    if shut l.session then { l with
      asked := l.asked ++ [req]
      returned := l.returned ++ [.error ⟨"E_INTERNAL", "Broken pipe (os error 32)"⟩] }
    else { l with
      waiting := some []
      requests := l.requests ++ (req.line ++ [newline])
      asked := l.asked ++ [req] }

/-- What the session said in a step is on its way to the client. -/
def tell (l : Link) (question : Option WireRequest) (session : Session) : Link :=
  let said := session.sent.drop l.session.sent.length
  { l with
    session
    answers := l.answers ++ onLines said
    answered := l.answered ++ said.map fun resp => (question, resp) }

def hangUp (l : Link) (kept : Nat) : Link :=
  { l with session := l.session.close, answers := l.answers.take kept }

def finish [WireReader] (l : Link) (line : Except WireError (List UInt8)) : Link :=
  { l with waiting := none, returned := l.returned ++ [received line] }

def step [Platform] [WireReader] (host : Host) (l : Link) : LinkStep → Link
  | .connect proof => if l.asked.isEmpty then l.ask (connection proof) else l
  | .call method params => if l.asked.isEmpty then l else l.ask ⟨2, method, params⟩
  | .read size =>
    match l.waiting, l.answers.take (min size 4096) with
    | none, _ => l
    | some buf, [] => if l.answers.isEmpty ∧ shut l.session then l.finish (.ok buf) else l
    | some buf, chunk =>
      match readTurn buf chunk with
      | .inl line => { l.finish line with answers := l.answers.drop (min size 4096) }
      | .inr more => { l with waiting := some more, answers := l.answers.drop (min size 4096) }
  | .hear size =>
    match (bound l.session).map l.reader.turn with
    | some none => { l with
        reader := ⟨l.reader.carry ++ l.requests.take (min size 4096)⟩
        requests := l.requests.drop (min size 4096) }
    | _ => l
  | .frame daemon now =>
    match (bound l.session).bind l.reader.turn with
    | none => l
    | some (frame, after) =>
      let question := match frame with
        | .ok raw => WireReader.request raw
        | .error _ => none
      let next : DaemonStep host := .frame 0 frame now
      { l.tell question (daemon.advance 0 l.session next) with reader := after }
  | .answer daemon handled written =>
    match l.session.phase with
    | .serving _ req =>
      let next : DaemonStep host := .answer 0 handled written
      let told := l.tell (some req) (daemon.advance 0 l.session next)
      if written then told else { told with answers := l.answers }
    | _ => l
  | .lose kept => l.hangUp kept

/-- A peer has connected. -/
def start (peer : PeerCred) : Link :=
  ⟨none, [], .new, ⟨.handshaking peer, []⟩, [], [], [], []⟩

end Link
end Code

section Attending
variable [Platform] [WireReader] {host : Host} {s : Session} {req : WireRequest} {daemon : Daemon}

/-- A session answers a request that it has read, or serves it. -/
theorem attended (host : Host) {raw : List UInt8} {max : Nat} (listens : bound s = some max)
    (filled : raw ≠ []) (read : WireReader.request raw = some req) (daemon : Daemon) (now : Nat) :
    ∃ next, daemon.advance 0 s (.frame 0 (.ok raw) now : DaemonStep host) = next ∧
      ((∃ resp, next.sent = s.sent ++ [resp] ∧
          ((∃ principal, next.phase = .reading principal) ∨ next.phase = .closed)) ∨
        next.sent = s.sent ∧ ∃ principal, next.phase = .serving principal req) := by
  refine ⟨_, rfl, ?_⟩
  rw [advance_frame]
  obtain ⟨phase, sent⟩ := s
  cases phase with
  | handshaking peer =>
    dsimp only
    have shaken := handshake_shaken host daemon ⟨.handshaking peer, sent⟩ peer (.ok raw) now
    generalize (handshake host daemon ⟨.handshaking peer, sent⟩ peer (.ok raw) now).1 = next
      at shaken ⊢
    cases shaken with
    | lost unread => cases unread
    | refused same e => exact .inl ⟨_, rfl, .inr rfl⟩
    | admitted same parsed shown passed standing v => exact .inl ⟨_, rfl, .inl ⟨_, rfl⟩⟩
  | reading principal =>
    dsimp only
    have served := serve_served daemon ⟨.reading principal, sent⟩ principal (.ok raw)
    generalize (serve daemon ⟨.reading principal, sent⟩ principal (.ok raw)).1 = next at served ⊢
    cases served with
    | ended hungUp => exact absurd (hungUp raw rfl) filled
    | refused same some e s' kept =>
      rcases kept with rfl | rfl
      · exact .inl ⟨_, rfl, .inl ⟨_, rfl⟩⟩
      · exact .inl ⟨_, rfl, .inr rfl⟩
    | dispatched same some parsed standing =>
      cases same
      cases read.symm.trans parsed
      exact .inr ⟨rfl, _, rfl⟩
  | serving principal other => cases listens
  | closed => cases listens

end Attending

section Stages

/-- Requests that the daemon takes and answers that the client takes: their lines are within
the bounds of the frames, and their values are read back. -/
structure Fits (asked : List WireRequest) (answered : List (Option WireRequest × WireResponse)) :
    Prop where
  hello : ∀ req ∈ asked.head?, req.line.length ≤ maxHandshakeBytes
  requests : ∀ req ∈ asked, req.Plain ∧ req.line.length ≤ maxFrameBytes
  answers : ∀ told ∈ answered, told.2.Plain ∧ told.2.line.length ≤ maxFrame

/-- A result is the answer to the call that it is returned for, or, when the connection is
over, a failure. -/
def Truthful (hungUp : Prop) (asked : List WireRequest)
    (answered : List (Option WireRequest × WireResponse))
    (returned : List (Except WireError Json)) : Prop :=
  ∀ (k : Nat) (result : Except WireError Json), returned[k]? = some result →
    (hungUp ∧ ∃ message, result = .error ⟨"E_INTERNAL", message⟩) ∨
      ∃ req resp, asked[k]? = some req ∧ answered[k]? = some (some req, resp) ∧
        result = heardAs resp.readBack

/-- Where a call is. -/
inductive Stage (l : Link) : Prop where
  | idle (silent : l.waiting = none)
      (empty : l.requests = [] ∧ l.reader.carry = [] ∧ l.answers = [])
      (listens : (∃ peer, l.session.phase = .handshaking peer) ∧ l.asked = [] ∨
        ∃ principal, l.session.phase = .reading principal)
      (heard : l.answered.map Prod.fst = l.asked.map some)
      (even : l.returned.length = l.asked.length)
  | asking (req : WireRequest) (waits : l.waiting = some [])
      (underWay : l.reader.carry ++ l.requests = req.line ++ [newline]) (quiet : l.answers = [])
      (bounded : ∃ max, bound l.session = some max ∧ req.line.length ≤ max)
      (heard : l.answered.map Prod.fst ++ [some req] = l.asked.map some)
      (odd : l.returned.length + 1 = l.asked.length)
  | serving (principal : CellPrincipal) (req : WireRequest) (waits : l.waiting = some [])
      (empty : l.requests = [] ∧ l.reader.carry = [] ∧ l.answers = [])
      (served : l.session.phase = .serving principal req)
      (heard : l.answered.map Prod.fst ++ [some req] = l.asked.map some)
      (odd : l.returned.length + 1 = l.asked.length)
  | answering (req : WireRequest) (resp : WireResponse)
      (before : List (Option WireRequest × WireResponse)) (buf : List UInt8)
      (waits : l.waiting = some buf) (clean : newline ∉ buf)
      (empty : l.requests = [] ∧ l.reader.carry = [])
      (live : ∃ principal, l.session.phase = .reading principal)
      (underWay : buf ++ l.answers = resp.line ++ [newline])
      (last : l.answered = before ++ [(some req, resp)])
      (heard : l.answered.map Prod.fst = l.asked.map some)
      (odd : l.returned.length + 1 = l.asked.length)
  | ending (req : WireRequest) (resp : WireResponse)
      (before : List (Option WireRequest × WireResponse)) (buf : List UInt8)
      (waits : l.waiting = some buf) (clean : newline ∉ buf)
      (hungUp : l.session.phase = .closed)
      (underWay : ∃ lost, buf ++ l.answers ++ lost = resp.line ++ [newline])
      (last : l.answered = before ++ [(some req, resp)])
      (heard : l.answered.map Prod.fst = l.asked.map some)
      (odd : l.returned.length + 1 = l.asked.length)
  | gone (hungUp : l.session.phase = .closed) (quiet : l.answers = [])
      (waits : l.waiting = none ∧ l.returned.length = l.asked.length ∨
        l.waiting = some [] ∧ l.returned.length + 1 = l.asked.length)

theorem getElem?_prefix {α : Type} {first all : List α} {k : Nat} {a : α} (start : first <+: all)
    (found : first[k]? = some a) : all[k]? = some a := by
  obtain ⟨more, rfl⟩ := start
  obtain ⟨inside, _⟩ := List.getElem?_eq_some_iff.mp found
  rw [List.getElem?_append_left inside, found]

theorem Truthful.later {hungUp hungUp' : Prop} {asked asked' : List WireRequest}
    {answered answered' : List (Option WireRequest × WireResponse)}
    {returned : List (Except WireError Json)} (truthful : Truthful hungUp asked answered returned)
    (ends : hungUp → hungUp') (more : asked <+: asked') (told : answered <+: answered') :
    Truthful hungUp' asked' answered' returned := by
  intro k result found
  rcases truthful k result found with ⟨ended, failed⟩ | ⟨req, resp, called, answer, same⟩
  · exact .inl ⟨ends ended, failed⟩
  · exact .inr ⟨req, resp, getElem?_prefix more called, getElem?_prefix told answer, same⟩

theorem Truthful.failed {hungUp : Prop} {asked : List WireRequest}
    {answered : List (Option WireRequest × WireResponse)}
    {returned : List (Except WireError Json)} (truthful : Truthful hungUp asked answered returned)
    (ended : hungUp) (message : String) :
    Truthful hungUp asked answered (returned ++ [.error ⟨"E_INTERNAL", message⟩]) := by
  intro k result found
  rw [List.getElem?_append] at found
  split at found
  · exact truthful k result found
  · rw [List.getElem?_singleton] at found
    split at found
    · exact .inl ⟨ended, message, (Option.some.inj found).symm⟩
    · cases found

/-- The last call is given its answer. -/
theorem Truthful.answered {hungUp : Prop} {asked : List WireRequest}
    {before : List (Option WireRequest × WireResponse)} {req : WireRequest} {resp : WireResponse}
    {returned : List (Except WireError Json)}
    (truthful : Truthful hungUp asked (before ++ [(some req, resp)]) returned)
    (heard : (before ++ [(some req, resp)]).map Prod.fst = asked.map some)
    (odd : returned.length + 1 = asked.length) :
    Truthful hungUp asked (before ++ [(some req, resp)]) (returned ++ [heardAs resp.readBack]) := by
  intro k result found
  rw [List.getElem?_append] at found
  split at found
  · exact truthful k result found
  · next outside =>
    rw [List.getElem?_singleton] at found
    split at found
    · have lengths := congrArg List.length heard
      rw [List.length_map, List.length_map, List.length_append, List.length_singleton] at lengths
      have here : k = before.length := by omega
      have answer : (before ++ [(some req, resp)])[k]? = some (some req, resp) := by
        rw [here, List.getElem?_append_right (Nat.le_refl _), Nat.sub_self]
        rfl
      have call : (asked.map some)[k]? = some (some req) := by
        rw [← heard, List.getElem?_map, answer]
        rfl
      rw [List.getElem?_map, Option.map_eq_some_iff] at call
      obtain ⟨_, called, same⟩ := call
      cases same
      exact .inr ⟨_, resp, called, answer, (Option.some.inj found).symm⟩
    · cases found

theorem line_filled (req : WireRequest) : req.line ≠ [] := by
  have opening := length_utf8 (Json.obj [
    ("id", .num req.id), ("method", .str req.method), ("params", req.params)]).render
  intro none
  rw [← WireRequest.line, none, utf8Size_object] at opening
  simp at opening

theorem answer_filled (resp : WireResponse) : resp.line ≠ [] := by
  have opening := length_utf8 (Json.obj resp.fields).render
  intro none
  rw [← WireResponse.line, none, utf8Size_object] at opening
  simp at opening
  omega

theorem onLines_one (resp : WireResponse) : onLines [resp] = resp.line ++ [newline] := by
  simp [onLines]

end Stages

section Steps
variable [Platform] [WireReader] {host : Host} {l : Link}

omit [Platform] in
theorem received_line (reads : ReadsWire) {resp : WireResponse} (plain : resp.Plain) :
    received (.ok resp.line) = heardAs resp.readBack := by
  unfold received
  dsimp only
  rw [reads.response resp plain]

omit [Platform] in
/-- What is cut before the end of the line is no answer. -/
theorem received_cut (reads : ReadsWire) {resp : WireResponse} {buf rest : List UInt8}
    (more : rest ≠ []) (part : buf ++ rest = resp.line) :
    ∃ message, received (.ok buf) = .error ⟨"E_INTERNAL", message⟩ := by
  obtain ⟨e, unread⟩ := reads.cut resp buf rest more part
  exact ⟨e, by unfold received; dsimp only; rw [unread]⟩

omit [Platform] [WireReader] in
theorem ask_stage (stage : Stage l)
    (truthful : Truthful (l.session.phase = .closed) l.asked l.answered l.returned)
    (req : WireRequest) (fits : Fits (l.ask req).asked (l.ask req).answered) :
    Stage (l.ask req) ∧ Truthful ((l.ask req).session.phase = .closed) (l.ask req).asked
        (l.ask req).answered (l.ask req).returned := by
  have busy : ∀ buf, l.waiting = some buf →
      Stage (l.ask req) ∧ Truthful ((l.ask req).session.phase = .closed) (l.ask req).asked
        (l.ask req).answered (l.ask req).returned := by
    intro buf waits
    have same : l.ask req = l := by rw [Link.ask, waits]
    rw [same]
    exact ⟨stage, truthful⟩
  cases stage with
  | idle silent empty listens heard even =>
    obtain ⟨requests, carry, answers⟩ := empty
    have open' : shut l.session = false := by
      rcases listens with ⟨⟨peer, phase⟩, _⟩ | ⟨principal, phase⟩ <;> rw [shut, phase]
    have called : (l.ask req).asked = l.asked ++ [req] := by
      rw [Link.ask, silent, open']
      rfl
    have bounded : ∃ max, bound l.session = some max ∧ req.line.length ≤ max := by
      rcases listens with ⟨⟨peer, phase⟩, first⟩ | ⟨principal, phase⟩
      · refine ⟨maxHandshakeBytes, by rw [bound, phase], fits.hello req ?_⟩
        rw [called, first]
        rfl
      · refine ⟨maxFrameBytes, by rw [bound, phase], (fits.requests req ?_).2⟩
        simp [called]
    rw [Link.ask, silent, open']
    constructor
    · exact .asking req rfl (by simp [carry, requests]) answers bounded (by simp [heard])
        (by simp [even])
    · exact truthful.later id (List.prefix_append _ _) (List.prefix_refl _)
  | asking _ waits => exact busy _ waits
  | serving _ _ waits => exact busy _ waits
  | answering _ _ _ buf waits => exact busy _ waits
  | ending _ _ _ buf waits => exact busy _ waits
  | gone hungUp quiet waits =>
    rcases waits with ⟨silent, even⟩ | ⟨waits, _⟩
    · have closed : shut l.session = true := by rw [shut, hungUp]
      rw [Link.ask, silent, closed]
      constructor
      · exact .gone hungUp quiet (.inl ⟨rfl, by simp [even]⟩)
      · exact (truthful.failed hungUp _).later id (List.prefix_append _ _) (List.prefix_refl _)
    · exact busy _ waits

theorem hear_stage (stage : Stage l)
    (truthful : Truthful (l.session.phase = .closed) l.asked l.answered l.returned)
    (size : Nat) : Stage (l.step host (.hear size)) ∧
      Truthful ((l.step host (.hear size)).session.phase = .closed)
        (l.step host (.hear size)).asked (l.step host (.hear size)).answered
        (l.step host (.hear size)).returned := by
  obtain ⟨reader, requests, same, moved⟩ : ∃ reader requests,
      l.step host (.hear size) = { l with reader := reader, requests := requests } ∧
        reader.carry ++ requests = l.reader.carry ++ l.requests := by
    rw [Link.step]
    split
    · exact ⟨_, _, rfl, by simp⟩
    · exact ⟨l.reader, l.requests, rfl, rfl⟩
  have still : l.requests = [] → l.reader.carry = [] → requests = [] ∧ reader.carry = [] := by
    intro none clear
    rw [none, clear, List.append_nil] at moved
    exact (List.append_eq_nil_iff.mp moved).symm
  rw [same]
  refine ⟨?_, truthful⟩
  cases stage with
  | idle silent empty listens heard even =>
    obtain ⟨none, clear⟩ := still empty.1 empty.2.1
    exact .idle silent ⟨none, clear, empty.2.2⟩ listens heard even
  | asking req waits underWay quiet bounded heard odd =>
    exact .asking req waits (moved.trans underWay) quiet bounded heard odd
  | serving principal req waits empty served heard odd =>
    obtain ⟨none, clear⟩ := still empty.1 empty.2.1
    exact .serving principal req waits ⟨none, clear, empty.2.2⟩ served heard odd
  | answering req resp before buf waits clean empty live underWay last heard odd =>
    exact .answering req resp before buf waits clean (still empty.1 empty.2) live underWay last
      heard odd
  | ending req resp before buf waits clean hungUp underWay last heard odd =>
    exact .ending req resp before buf waits clean hungUp underWay last heard odd
  | gone hungUp quiet waits => exact .gone hungUp quiet waits

/-- What a read of the client does. -/
inductive ReadEffect (l : Link) : Link → Prop where
  | none : ReadEffect l l
  | ended {buf : List UInt8} (waits : l.waiting = some buf) (empty : l.answers = [])
      (hungUp : l.session.phase = .closed) : ReadEffect l (l.finish (.ok buf))
  | line {buf chunk rest : List UInt8} {result : Except WireError (List UInt8)}
      (waits : l.waiting = some buf) (filled : chunk ≠ []) (split : chunk ++ rest = l.answers)
      (turn : readTurn buf chunk = .inl result) :
      ReadEffect l { l.finish result with answers := rest }
  | part {buf chunk rest more : List UInt8} (waits : l.waiting = some buf) (filled : chunk ≠ [])
      (split : chunk ++ rest = l.answers) (turn : readTurn buf chunk = .inr more) :
      ReadEffect l { l with waiting := some more, answers := rest }

omit [Platform] [WireReader] in
theorem closed_of_shut {s : Session} (closed : shut s = true) : s.phase = .closed := by
  unfold shut at closed
  split at closed
  · assumption
  · cases closed

theorem read_effect (host : Host) (l : Link) (size : Nat) :
    ReadEffect l (l.step host (.read size)) := by
  rw [Link.step]
  have split := List.take_append_drop (min size 4096) l.answers
  split
  · exact .none
  · next buf waits nothing =>
    split
    · next hungUp => exact .ended waits (List.isEmpty_iff.mp hungUp.1) (closed_of_shut hungUp.2)
    · exact .none
  · next buf chunk waits some =>
    have filled : l.answers.take (min size 4096) ≠ [] := some
    split
    · next result turn => exact .line waits filled split turn
    · next more turn => exact .part waits filled split turn

omit [Platform] in
/-- The client reads on in an answer that is under way. -/
theorem ReadEffect.answering {next : Link} (effect : ReadEffect l next) (reads : ReadsWire)
    (truthful : Truthful (l.session.phase = .closed) l.asked l.answered l.returned)
    (fits : Fits l.asked l.answered) {req : WireRequest} {resp : WireResponse}
    {before : List (Option WireRequest × WireResponse)} {buf : List UInt8}
    (waits : l.waiting = some buf) (clean : newline ∉ buf)
    (empty : l.requests = [] ∧ l.reader.carry = [])
    (live : ∃ principal, l.session.phase = .reading principal)
    (underWay : buf ++ l.answers = resp.line ++ [newline])
    (last : l.answered = before ++ [(some req, resp)])
    (heard : l.answered.map Prod.fst = l.asked.map some)
    (odd : l.returned.length + 1 = l.asked.length) :
    Stage next ∧
      Truthful (next.session.phase = .closed) next.asked next.answered next.returned := by
  have told : (some req, resp) ∈ l.answered := by simp [last]
  obtain ⟨plain, short⟩ := fits.answers _ told
  have free := newline_not_answer resp
  cases effect with
  | none =>
    exact ⟨.answering req resp before buf waits clean empty live underWay last heard odd, truthful⟩
  | ended _ _ hungUp =>
    obtain ⟨principal, phase⟩ := live
    cases phase.symm.trans hungUp
  | line waits' filled split turn =>
    cases waits.symm.trans waits'
    rw [← split, ← List.append_assoc] at underWay
    rcases readTurn_line free clean short underWay with ⟨ended, none⟩ | ⟨more, _⟩
    · cases turn.symm.trans ended
      subst none
      constructor
      · exact .idle rfl ⟨empty.1, empty.2, rfl⟩ (.inr live) heard
          (by simpa [Link.finish] using odd)
      · rw [last] at truthful heard
        simpa [Link.finish, received_line reads plain, last] using truthful.answered heard odd
    · cases turn.symm.trans more
  | part waits' filled split turn =>
    cases waits.symm.trans waits'
    rw [← split, ← List.append_assoc] at underWay
    rcases readTurn_line free clean short underWay with ⟨ended, _⟩ | ⟨more, open'⟩
    · cases turn.symm.trans ended
    · cases turn.symm.trans more
      exact ⟨.answering req resp before _ rfl open' empty live underWay last heard odd, truthful⟩

omit [Platform] in
/-- The client reads on in an answer of which the end may be lost. -/
theorem ReadEffect.ending {next : Link} (effect : ReadEffect l next) (reads : ReadsWire)
    (truthful : Truthful (l.session.phase = .closed) l.asked l.answered l.returned)
    (fits : Fits l.asked l.answered) {req : WireRequest} {resp : WireResponse}
    {before : List (Option WireRequest × WireResponse)} {buf : List UInt8}
    (waits : l.waiting = some buf) (clean : newline ∉ buf)
    (hungUp : l.session.phase = .closed)
    (underWay : ∃ lost, buf ++ l.answers ++ lost = resp.line ++ [newline])
    (last : l.answered = before ++ [(some req, resp)])
    (heard : l.answered.map Prod.fst = l.asked.map some)
    (odd : l.returned.length + 1 = l.asked.length) :
    Stage next ∧
      Truthful (next.session.phase = .closed) next.asked next.answered next.returned := by
  have told : (some req, resp) ∈ l.answered := by simp [last]
  obtain ⟨plain, short⟩ := fits.answers _ told
  have free := newline_not_answer resp
  obtain ⟨lost, underWay⟩ := underWay
  have answered : Truthful (l.session.phase = .closed) l.asked l.answered
      (l.returned ++ [heardAs resp.readBack]) := by
    rw [last] at truthful heard ⊢
    exact truthful.answered heard odd
  cases effect with
  | none =>
    exact ⟨.ending req resp before buf waits clean hungUp ⟨lost, underWay⟩ last heard odd, truthful⟩
  | ended waits' quiet _ =>
    cases waits.symm.trans waits'
    refine ⟨.gone hungUp quiet (.inl ⟨rfl, by simpa [Link.finish] using odd⟩), ?_⟩
    rw [quiet, List.append_nil] at underWay
    rcases List.eq_nil_or_concat lost with rfl | ⟨rest, last', rfl⟩
    · rw [List.append_nil] at underWay
      exact absurd (by simp [underWay]) clean
    · rw [List.concat_eq_append, ← List.append_assoc] at underWay
      obtain ⟨part, _⟩ := List.append_inj' underWay rfl
      cases rest with
      | nil =>
        rw [List.append_nil] at part
        simpa [Link.finish, part, received_line reads plain] using answered
      | cons byte rest =>
        obtain ⟨message, failed⟩ := received_cut reads (List.cons_ne_nil byte rest) part
        simpa [Link.finish, failed] using truthful.failed hungUp message
  | line waits' filled split turn =>
    cases waits.symm.trans waits'
    rw [← split, ← List.append_assoc, List.append_assoc _ _ lost] at underWay
    rcases readTurn_line free clean short underWay with ⟨ended, none⟩ | ⟨more, _⟩
    · cases turn.symm.trans ended
      obtain ⟨rfl, rfl⟩ := List.append_eq_nil_iff.mp none
      constructor
      · exact .gone hungUp rfl (.inl ⟨rfl, by simpa [Link.finish] using odd⟩)
      · simpa [Link.finish, received_line reads plain] using answered
    · cases turn.symm.trans more
  | part waits' filled split turn =>
    cases waits.symm.trans waits'
    rw [← split, ← List.append_assoc, List.append_assoc _ _ lost] at underWay
    rcases readTurn_line free clean short underWay with ⟨ended, _⟩ | ⟨more, open'⟩
    · cases turn.symm.trans ended
    · cases turn.symm.trans more
      rw [← List.append_assoc] at underWay
      exact ⟨.ending req resp before _ rfl open' hungUp ⟨lost, underWay⟩ last heard odd, truthful⟩

theorem read_stage (reads : ReadsWire) (stage : Stage l)
    (truthful : Truthful (l.session.phase = .closed) l.asked l.answered l.returned)
    (fits : Fits l.asked l.answered)
    (size : Nat) : Stage (l.step host (.read size)) ∧
      Truthful ((l.step host (.read size)).session.phase = .closed)
        (l.step host (.read size)).asked (l.step host (.read size)).answered
        (l.step host (.read size)).returned := by
  have effect := read_effect host l size
  generalize l.step host (.read size) = next at effect ⊢
  cases stage with
  | idle silent empty listens heard even =>
    cases effect with
    | none => exact ⟨.idle silent empty listens heard even, truthful⟩
    | ended waits => cases silent.symm.trans waits
    | line waits => cases silent.symm.trans waits
    | part waits => cases silent.symm.trans waits
  | asking req waits underWay quiet bounded heard odd =>
    cases effect with
    | none => exact ⟨.asking req waits underWay quiet bounded heard odd, truthful⟩
    | ended _ _ hungUp =>
      obtain ⟨max, listens, _⟩ := bounded
      rw [bound, hungUp] at listens
      cases listens
    | line _ filled split => exact absurd (List.append_eq_nil_iff.mp (split.trans quiet)).1 filled
    | part _ filled split => exact absurd (List.append_eq_nil_iff.mp (split.trans quiet)).1 filled
  | serving principal req waits empty served heard odd =>
    have quiet := empty.2.2
    cases effect with
    | none => exact ⟨.serving principal req waits empty served heard odd, truthful⟩
    | ended _ _ hungUp => cases served.symm.trans hungUp
    | line _ filled split => exact absurd (List.append_eq_nil_iff.mp (split.trans quiet)).1 filled
    | part _ filled split => exact absurd (List.append_eq_nil_iff.mp (split.trans quiet)).1 filled
  | answering req resp before buf waits clean empty live underWay last heard odd =>
    exact effect.answering reads truthful fits waits clean empty live underWay last heard odd
  | ending req resp before buf waits clean hungUp underWay last heard odd =>
    exact effect.ending reads truthful fits waits clean hungUp underWay last heard odd
  | gone hungUp quiet waits =>
    cases effect with
    | none => exact ⟨.gone hungUp quiet waits, truthful⟩
    | ended waits' =>
      rcases waits with ⟨silent, _⟩ | ⟨waits, odd⟩
      · cases silent.symm.trans waits'
      · cases waits.symm.trans waits'
        refine ⟨.gone hungUp quiet (.inl ⟨rfl, by simpa [Link.finish] using odd⟩), ?_⟩
        obtain ⟨message, failed⟩ :=
          received_cut reads (answer_filled (.ok 0 .null)) (List.nil_append _)
        simpa [Link.finish, failed] using truthful.failed hungUp message
    | line _ filled split => exact absurd (List.append_eq_nil_iff.mp (split.trans quiet)).1 filled
    | part _ filled split => exact absurd (List.append_eq_nil_iff.mp (split.trans quiet)).1 filled

omit [Platform] [WireReader] in
theorem turn_empty {reader : FrameReader} (empty : reader.carry = []) (max : Nat) :
    reader.turn max = none := by
  rw [FrameReader.turn, empty]
  exact if_neg (Nat.not_lt_zero _)

/-- A frame that is taken is answered, or served. -/
theorem frame_taken (host : Host) {raw : List UInt8} {max : Nat} {left : FrameReader}
    {req : WireRequest}
    (listens : bound l.session = some max) (turned : l.reader.turn max = some (.ok raw, left))
    (filled : raw ≠ []) (read : WireReader.request raw = some req) (daemon : Daemon) (now : Nat) :
    ∃ next : Session,
      (∃ resp, l.step host (.frame daemon now) = { l with
          session := next
          reader := left
          answers := l.answers ++ (resp.line ++ [newline])
          answered := l.answered ++ [(some req, resp)] } ∧
        ((∃ principal, next.phase = .reading principal) ∨ next.phase = .closed)) ∨
      l.step host (.frame daemon now) = { l with session := next, reader := left } ∧
        ∃ principal, next.phase = .serving principal req := by
  have taken : (bound l.session).bind l.reader.turn = some (.ok raw, left) := by
    rw [listens]
    exact turned
  obtain ⟨next, advanced, outcome⟩ := attended host listens filled read daemon now
  have same : l.step host (.frame daemon now) = { l.tell (some req) next with reader := left } := by
    rw [Link.step, taken]
    dsimp only
    rw [advanced, read]
  refine ⟨next, ?_⟩
  rcases outcome with ⟨resp, sent, phase⟩ | ⟨sent, phase⟩
  · have said : next.sent.drop l.session.sent.length = [resp] := by
      rw [sent, List.drop_left]
    refine .inl ⟨resp, ?_, phase⟩
    rw [same, Link.tell, said, onLines_one]
    rfl
  · have said : next.sent.drop l.session.sent.length = [] := by
      rw [sent, List.drop_length]
    refine .inr ⟨?_, phase⟩
    rw [same, Link.tell, said]
    simp [onLines]

theorem frame_stage (reads : ReadsWire) (stage : Stage l)
    (truthful : Truthful (l.session.phase = .closed) l.asked l.answered l.returned)
    (fits : Fits l.asked l.answered)
    (daemon : Daemon) (now : Nat) : Stage (l.step host (.frame daemon now)) ∧
      Truthful ((l.step host (.frame daemon now)).session.phase = .closed)
        (l.step host (.frame daemon now)).asked (l.step host (.frame daemon now)).answered
        (l.step host (.frame daemon now)).returned := by
  have still : (bound l.session).bind l.reader.turn = none →
      Stage (l.step host (.frame daemon now)) ∧
        Truthful ((l.step host (.frame daemon now)).session.phase = .closed)
        (l.step host (.frame daemon now)).asked (l.step host (.frame daemon now)).answered
          (l.step host (.frame daemon now)).returned := by
    intro none
    have same : l.step host (.frame daemon now) = l := by rw [Link.step, none]
    rw [same]
    exact ⟨stage, truthful⟩
  have unread : l.reader.carry = [] → (bound l.session).bind l.reader.turn = none := by
    intro empty
    cases bound l.session with
    | none => rfl
    | some max => exact turn_empty empty max
  cases stage with
  | idle silent empty => exact still (unread empty.2.1)
  | serving principal req waits empty => exact still (unread empty.2.1)
  | answering req resp before buf waits clean empty => exact still (unread empty.2)
  | ending req resp before buf waits clean hungUp => exact still (by rw [bound, hungUp]; rfl)
  | gone hungUp => exact still (by rw [bound, hungUp]; rfl)
  | asking req waits underWay quiet bounded heard odd =>
    obtain ⟨max, listens, short⟩ := bounded
    rcases turn_line (newline_not_request req) underWay short with none | ⟨whole, none⟩
    · exact still (by rw [listens]; exact none)
    · have alive : l.session.phase ≠ .closed := by
        intro hungUp
        rw [bound, hungUp] at listens
        cases listens
      have called : req ∈ l.asked := by
        have member : some req ∈ l.asked.map some := by simp [← heard]
        simpa using member
      obtain ⟨plain, _⟩ := fits.requests req called
      have read := reads.request req plain
      obtain ⟨next, ⟨resp, same, phase⟩ | ⟨same, principal, phase⟩⟩ :=
        frame_taken host listens whole (line_filled req) read daemon now
      · rw [same, quiet, List.nil_append]
        refine ⟨?_, truthful.later (absurd · alive) (List.prefix_refl _) (List.prefix_append _ _)⟩
        rcases phase with live | hungUp
        · exact .answering req resp l.answered [] waits (by simp) ⟨none, rfl⟩ live rfl rfl
            (by simp [heard]) odd
        · exact .ending req resp l.answered [] waits (by simp) hungUp ⟨[], by simp⟩ rfl
            (by simp [heard]) odd
      · rw [same]
        refine ⟨.serving principal req waits ⟨none, rfl, quiet⟩ phase heard odd, ?_⟩
        exact truthful.later (absurd · alive) (List.prefix_refl _) (List.prefix_refl _)

/-- A handler's answer is on its way, or is lost with the connection. -/
theorem answer_served (host : Host) {principal : CellPrincipal} {req : WireRequest}
    (served : l.session.phase = .serving principal req) (daemon : Daemon)
    (handled : Except BusError Json) (written : Bool) :
    l.step host (.answer daemon handled written) = { l with
      session := { l.session.say (dispatch req handled) with
        phase := if written then .reading principal else .closed }
      answers := l.answers ++ if written then (dispatch req handled).line ++ [newline] else []
      answered := l.answered ++ [(some req, dispatch req handled)] } := by
  have advanced : daemon.advance 0 l.session (.answer 0 handled written : DaemonStep host) =
      { l.session.say (dispatch req handled) with
        phase := if written then .reading principal else .closed } := by
    rw [advance_answer, served]
  have said : (l.session.say (dispatch req handled)).sent.drop l.session.sent.length =
      [dispatch req handled] := List.drop_left
  rw [Link.step, served]
  dsimp only
  rw [advanced, Link.tell]
  dsimp only
  rw [said, onLines_one]
  cases written with
  | true => rfl
  | false => simp

theorem answer_stage (stage : Stage l)
    (truthful : Truthful (l.session.phase = .closed) l.asked l.answered l.returned)
    (daemon : Daemon) (handled : Except BusError Json) (written : Bool) :
    Stage (l.step host (.answer daemon handled written)) ∧
      Truthful ((l.step host (.answer daemon handled written)).session.phase = .closed)
        (l.step host (.answer daemon handled written)).asked
        (l.step host (.answer daemon handled written)).answered
        (l.step host (.answer daemon handled written)).returned := by
  have still : (∀ principal req, l.session.phase ≠ .serving principal req) →
      Stage (l.step host (.answer daemon handled written)) ∧
        Truthful ((l.step host (.answer daemon handled written)).session.phase = .closed)
        (l.step host (.answer daemon handled written)).asked
          (l.step host (.answer daemon handled written)).answered
          (l.step host (.answer daemon handled written)).returned := by
    intro other
    have same : l.step host (.answer daemon handled written) = l := by
      rw [Link.step]
      split
      · next principal req served => exact absurd served (other principal req)
      · rfl
    rw [same]
    exact ⟨stage, truthful⟩
  cases stage with
  | idle silent empty listens =>
    apply still
    intro principal req served
    rcases listens with ⟨⟨peer, phase⟩, _⟩ | ⟨reader, phase⟩ <;> cases phase.symm.trans served
  | asking req waits underWay quiet bounded =>
    apply still
    intro principal other served
    obtain ⟨max, listens, _⟩ := bounded
    rw [bound, served] at listens
    cases listens
  | answering req resp before buf waits clean empty live =>
    apply still
    intro principal other served
    obtain ⟨reader, phase⟩ := live
    cases phase.symm.trans served
  | ending req resp before buf waits clean hungUp =>
    exact still fun principal other served => by cases hungUp.symm.trans served
  | gone hungUp => exact still fun principal other served => by cases hungUp.symm.trans served
  | serving principal req waits empty served heard odd =>
    obtain ⟨requests, carry, quiet⟩ := empty
    have alive : l.session.phase ≠ .closed := by
      intro hungUp
      cases served.symm.trans hungUp
    rw [answer_served host served daemon handled written, quiet]
    cases written with
    | true =>
      refine ⟨?_, truthful.later (absurd · alive) (List.prefix_refl _) (List.prefix_append _ _)⟩
      exact .answering req (dispatch req handled) l.answered [] waits (by simp) ⟨requests, carry⟩
        ⟨principal, rfl⟩ rfl rfl (by simp [heard]) odd
    | false =>
      refine ⟨?_, truthful.later (absurd · alive) (List.prefix_refl _) (List.prefix_append _ _)⟩
      exact .gone rfl rfl (.inr ⟨waits, odd⟩)

omit [Platform] [WireReader] in
theorem lose_stage (stage : Stage l)
    (truthful : Truthful (l.session.phase = .closed) l.asked l.answered l.returned)
    (kept : Nat) : Stage (l.hangUp kept) ∧
      Truthful ((l.hangUp kept).session.phase = .closed) (l.hangUp kept).asked
        (l.hangUp kept).answered (l.hangUp kept).returned := by
  refine ⟨?_, truthful.later (fun _ => rfl) (List.prefix_refl _) (List.prefix_refl _)⟩
  have left : l.answers = [] → (l.hangUp kept).answers = [] := by
    intro quiet
    rw [Link.hangUp, quiet]
    exact List.take_nil
  cases stage with
  | idle silent empty listens heard even => exact .gone rfl (left empty.2.2) (.inl ⟨silent, even⟩)
  | asking req waits underWay quiet bounded heard odd =>
    exact .gone rfl (left quiet) (.inr ⟨waits, odd⟩)
  | serving principal req waits empty served heard odd =>
    exact .gone rfl (left empty.2.2) (.inr ⟨waits, odd⟩)
  | answering req resp before buf waits clean empty live underWay last heard odd =>
    exact .ending req resp before buf waits clean rfl
      ⟨l.answers.drop kept, by simpa [Link.hangUp] using underWay⟩ last heard odd
  | ending req resp before buf waits clean hungUp underWay last heard odd =>
    obtain ⟨lost, underWay⟩ := underWay
    have all : buf ++ l.answers.take kept ++ (l.answers.drop kept ++ lost) =
        resp.line ++ [newline] := by
      rw [List.append_assoc, ← List.append_assoc (l.answers.take kept), List.take_append_drop,
        ← List.append_assoc, underWay]
    exact .ending req resp before buf waits clean rfl ⟨_, all⟩ last heard odd
  | gone hungUp quiet waits => exact .gone rfl (left quiet) waits

/-- What was asked and answered stays. -/
theorem step_grows (host : Host) (l : Link) (s : LinkStep) : l.asked <+: (l.step host s).asked ∧
    l.answered <+: (l.step host s).answered := by
  have told : ∀ (question : Option WireRequest) (session : Session),
      l.answered <+: (l.tell question session).answered := fun _ _ => List.prefix_append _ _
  have asks : ∀ req, l.asked <+: (l.ask req).asked ∧ (l.ask req).answered = l.answered := by
    intro req
    rw [Link.ask]
    split
    · exact ⟨List.prefix_refl _, rfl⟩
    · split <;> exact ⟨List.prefix_append _ _, rfl⟩
  cases s with
  | connect proof =>
    rw [Link.step]
    split
    · exact ⟨(asks _).1, (asks _).2 ▸ List.prefix_refl _⟩
    · exact ⟨List.prefix_refl _, List.prefix_refl _⟩
  | call method params =>
    rw [Link.step]
    split
    · exact ⟨List.prefix_refl _, List.prefix_refl _⟩
    · exact ⟨(asks _).1, (asks _).2 ▸ List.prefix_refl _⟩
  | read size =>
    have effect := read_effect host l size
    generalize l.step host (.read size) = next at effect ⊢
    cases effect <;> exact ⟨List.prefix_refl _, List.prefix_refl _⟩
  | hear size =>
    rw [Link.step]
    split <;> exact ⟨List.prefix_refl _, List.prefix_refl _⟩
  | frame daemon now =>
    rw [Link.step]
    split
    · exact ⟨List.prefix_refl _, List.prefix_refl _⟩
    · exact ⟨List.prefix_refl _, told _ _⟩
  | answer daemon handled written =>
    rw [Link.step]
    split
    · dsimp only
      split <;> exact ⟨List.prefix_refl _, told _ _⟩
    · exact ⟨List.prefix_refl _, List.prefix_refl _⟩
  | lose kept => exact ⟨List.prefix_refl _, List.prefix_refl _⟩

omit [Platform] [WireReader] in
theorem Fits.earlier {asked asked' : List WireRequest}
    {answered answered' : List (Option WireRequest × WireResponse)} (fits : Fits asked' answered')
    (more : asked <+: asked') (told : answered <+: answered') : Fits asked answered := by
  obtain ⟨calls, rfl⟩ := more
  constructor
  · intro req first
    apply fits.hello
    cases asked with
    | nil => cases first
    | cons => exact first
  · exact fun req member => fits.requests req (List.mem_append_left _ member)
  · exact fun answer member => fits.answers answer (told.mem member)

theorem step_stage (reads : ReadsWire) (stage : Stage l)
    (truthful : Truthful (l.session.phase = .closed) l.asked l.answered l.returned) (s : LinkStep)
    (fits : Fits (l.step host s).asked (l.step host s).answered) : Stage (l.step host s) ∧
      Truthful ((l.step host s).session.phase = .closed)
        (l.step host s).asked (l.step host s).answered (l.step host s).returned := by
  obtain ⟨asked, answered⟩ := step_grows host l s
  have now : Fits l.asked l.answered := fits.earlier asked answered
  cases s with
  | connect proof =>
    rw [Link.step] at fits ⊢
    split at fits
    · next first => exact if_pos first ▸ ask_stage stage truthful _ fits
    · next again => exact if_neg again ▸ ⟨stage, truthful⟩
  | call method params =>
    rw [Link.step] at fits ⊢
    split at fits
    · next first => exact if_pos first ▸ ⟨stage, truthful⟩
    · next later => exact if_neg later ▸ ask_stage stage truthful _ fits
  | read size => exact read_stage reads stage truthful now size
  | hear size => exact hear_stage stage truthful size
  | frame daemon now' => exact frame_stage reads stage truthful now daemon now'
  | answer daemon handled written => exact answer_stage stage truthful daemon handled written
  | lose kept => exact lose_stage stage truthful kept

theorem run_stage (host : Host) (reads : ReadsWire) (peer : PeerCred) (steps : List LinkStep)
    (fits : Fits (after (Link.step host) (.start peer) steps).asked
      (after (Link.step host) (.start peer) steps).answered) :
    Stage (after (Link.step host) (.start peer) steps) ∧
      Truthful ((after (Link.step host) (.start peer) steps).session.phase = .closed)
        (after (Link.step host) (.start peer) steps).asked
        (after (Link.step host) (.start peer) steps).answered
        (after (Link.step host) (.start peer) steps).returned := by
  induction steps using List.reverseRecOn with
  | nil =>
    constructor
    · exact .idle rfl ⟨rfl, rfl, rfl⟩ (.inl ⟨⟨peer, rfl⟩, rfl⟩) rfl rfl
    · intro k result found
      cases found
  | append_singleton past s ih =>
    rw [after_concat] at fits ⊢
    obtain ⟨asked, answered⟩ := step_grows host (after (Link.step host) (.start peer) past) s
    obtain ⟨stage, truthful⟩ := ih (fits.earlier asked answered)
    exact step_stage reads stage truthful s fits

/-- Whatever pieces the bytes come in and whenever the connection is lost, a call returns the
answer to this very call, or a failure when it is lost, as long as the lines fit. -/
theorem calls_answered (reads : ReadsWire) (peer : PeerCred) (steps : List LinkStep)
    (fits : Fits (after (Link.step host) (.start peer) steps).asked
      (after (Link.step host) (.start peer) steps).answered) :
    Truthful ((after (Link.step host) (.start peer) steps).session.phase = .closed)
        (after (Link.step host) (.start peer) steps).asked
      (after (Link.step host) (.start peer) steps).answered
      (after (Link.step host) (.start peer) steps).returned :=
  (run_stage host reads peer steps fits).2

/-- What is under way is read to its end, byte by byte. -/
theorem read_on (host : Host) {buf : List UInt8} (waits : l.waiting = some buf)
    (ends : newline ∈ l.answers) :
    ∃ n, (after (Link.step host) l (List.replicate n (.read 1))).waiting = none ∧
      (after (Link.step host) l (List.replicate n (.read 1))).returned.length =
        l.returned.length + 1 := by
  obtain ⟨waiting, requests, reader, session, answers, asked, answered, returned⟩ := l
  induction answers generalizing waiting buf with
  | nil => cases ends
  | cons byte rest ih =>
    have turned : Link.step host ⟨waiting, requests, reader, session, byte :: rest, asked, answered,
        returned⟩ (.read 1) = match readTurn buf [byte] with
          | .inl line => ⟨none, requests, reader, session, rest, asked, answered,
              returned ++ [received line]⟩
          | .inr more => ⟨some more, requests, reader, session, rest, asked, answered, returned⟩ := by
      rw [Link.step, show waiting = some buf from waits]
      rfl
    cases turn : readTurn buf [byte] with
    | inl line =>
      rw [turn] at turned
      refine ⟨1, ?_⟩
      rw [List.replicate_one, after_cons, after_nil, turned]
      simp
    | inr more =>
      rw [turn] at turned
      have other : byte ≠ newline := by
        rintro rfl
        simp [readTurn] at turn
      have later : newline ∈ rest := (List.mem_cons.mp ends).resolve_left other.symm
      obtain ⟨n, done⟩ := ih (some more) rfl later
      refine ⟨n + 1, ?_⟩
      rw [List.replicate_succ, after_cons, turned]
      exact done

/-- A request that is under way is heard to its end, byte by byte. -/
theorem hear_on (host : Host) {line : List UInt8} {max : Nat} (free : newline ∉ line)
    (fits : line.length ≤ max)
    (listens : bound l.session = some max)
    (underWay : l.reader.carry ++ l.requests = line ++ [newline]) :
    ∃ n, after (Link.step host) l (List.replicate n (.hear 1)) =
      { l with reader := ⟨line ++ [newline]⟩, requests := [] } := by
  obtain ⟨waiting, requests, reader, session, answers, asked, answered, returned⟩ := l
  induction requests generalizing reader with
  | nil =>
    refine ⟨0, ?_⟩
    have whole : reader.carry = line ++ [newline] := by simpa using underWay
    rw [← whole]
    rfl
  | cons byte rest ih =>
    have unread : reader.turn max = none := by
      rcases turn_line free underWay fits with none | ⟨_, none⟩
      · exact none
      · cases none
    have moved : Link.step host ⟨waiting, byte :: rest, reader, session, answers, asked, answered,
        returned⟩ (.hear 1) = ⟨waiting, rest, ⟨reader.carry ++ [byte]⟩, session, answers, asked,
          answered, returned⟩ := by
      rw [Link.step, show bound session = some max from listens, Option.map_some]
      dsimp only
      rw [unread]
      rfl
    obtain ⟨n, done⟩ := ih ⟨reader.carry ++ [byte]⟩ listens (by simpa using underWay)
    refine ⟨n + 1, ?_⟩
    rw [List.replicate_succ, after_cons, moved]
    exact done

/-- The parties go on by themselves: nothing is asked and the connection is not lost. -/
def GoesOn (daemon : Daemon) (now : Nat) (handled : Except BusError Json) : LinkStep → Prop
  | .read _ | .hear _ => True
  | .frame daemon' now' => daemon' = daemon ∧ now' = now
  | .answer daemon' handled' written => daemon' = daemon ∧ handled' = handled ∧ written = true
  | .connect _ | .call _ _ | .lose _ => False

/-- The call can end: the parties go on until it returns. -/
def Returns (host : Host) (l : Link) (daemon : Daemon) (now : Nat)
    (handled : Except BusError Json) : Prop :=
  ∃ more : List LinkStep, (∀ s ∈ more, GoesOn daemon now handled s) ∧
    (after (Link.step host) l more).waiting = none ∧
    (after (Link.step host) l more).returned.length = l.returned.length + 1

theorem Returns.before {daemon : Daemon} {now : Nat} {handled : Except BusError Json}
    (first : List LinkStep) (goes : ∀ s ∈ first, GoesOn daemon now handled s)
    (same : (after (Link.step host) l first).returned = l.returned)
    (returns : Returns host (after (Link.step host) l first) daemon now handled) :
    Returns host l daemon now handled := by
  obtain ⟨more, goes', silent, returned⟩ := returns
  refine ⟨first ++ more, ?_, ?_, ?_⟩
  · intro s member
    exact (List.mem_append.mp member).elim (goes s) (goes' s)
  · rw [after_inputs_append, silent]
  · rw [after_inputs_append, returned, same]

theorem returns_told {daemon : Daemon} {now : Nat} {handled : Except BusError Json}
    {buf : List UInt8} (waits : l.waiting = some buf) (ends : newline ∈ l.answers) :
    Returns host l daemon now handled := by
  obtain ⟨n, done⟩ := read_on host waits ends
  refine ⟨_, ?_, done⟩
  intro s member
  obtain rfl := List.eq_of_mem_replicate member
  trivial

theorem returns_served {principal : CellPrincipal} {req : WireRequest} {buf : List UInt8}
    (waits : l.waiting = some buf) (served : l.session.phase = .serving principal req)
    (daemon : Daemon) (now : Nat) (handled : Except BusError Json) :
    Returns host l daemon now handled := by
  have step := answer_served host served daemon handled true
  apply Returns.before [.answer daemon handled true]
  · simp [GoesOn]
  · rw [after_cons, after_nil, step]
  · rw [after_cons, after_nil, step]
    exact returns_told waits (by simp)

/-- While the connection lives every call can end: whatever has happened, the parties go on to
its return, however its handler ends. -/
theorem waiting_calls_return (reads : ReadsWire) (peer : PeerCred) (steps : List LinkStep)
    (fits : Fits (after (Link.step host) (.start peer) steps).asked
      (after (Link.step host) (.start peer) steps).answered)
    (waits : (after (Link.step host) (.start peer) steps).waiting ≠ none)
    (alive : (after (Link.step host) (.start peer) steps).session.phase ≠ .closed)
    (daemon : Daemon) (now : Nat) (handled : Except BusError Json) :
    Returns host (after (Link.step host) (.start peer) steps) daemon now handled := by
  obtain ⟨stage, _⟩ := run_stage host reads peer steps fits
  generalize after (Link.step host) (.start peer) steps = l at fits waits alive stage ⊢
  cases stage with
  | idle silent => exact absurd silent waits
  | gone hungUp => exact absurd hungUp alive
  | ending _ _ _ _ _ _ hungUp => exact absurd hungUp alive
  | answering req resp before buf waits clean empty live underWay =>
    refine returns_told waits ((List.mem_append.mp ?_).resolve_left clean)
    rw [underWay]
    simp
  | serving principal req waits empty served => exact returns_served waits served daemon now handled
  | asking req waits underWay quiet bounded heard odd =>
    obtain ⟨max, listens, short⟩ := bounded
    have free := newline_not_request req
    obtain ⟨n, heardOn⟩ := hear_on host free short listens underWay
    apply Returns.before (List.replicate n (.hear 1))
    · intro s member
      obtain rfl := List.eq_of_mem_replicate member
      trivial
    · rw [heardOn]
    · rw [heardOn]
      have called : req ∈ l.asked := by
        have member : some req ∈ l.asked.map some := by simp [← heard]
        simpa using member
      obtain ⟨plain, _⟩ := fits.requests req called
      have read := reads.request req plain
      obtain ⟨next, ⟨resp, same, _⟩ | ⟨same, principal, phase⟩⟩ :=
        frame_taken host (l := { l with reader := ⟨req.line ++ [newline]⟩, requests := [] })
          listens (turn_whole free short) (line_filled req) read daemon now
      · apply Returns.before [.frame daemon now]
        · simp [GoesOn]
        · rw [after_cons, after_nil, same]
        · rw [after_cons, after_nil, same]
          exact returns_told waits (by simp)
      · apply Returns.before [.frame daemon now]
        · simp [GoesOn]
        · rw [after_cons, after_nil, same]
        · rw [after_cons, after_nil, same]
          exact returns_served (l := { l with session := next, reader := ⟨[]⟩, requests := [] })
            waits phase daemon now handled

/-- A request of a few bytes on a link where nothing else is under way is heard at once. -/
theorem ask_heard (host : Host) {req : WireRequest} {max : Nat} (silent : l.waiting = none)
    (empty : l.requests = [] ∧ l.reader.carry = []) (listens : bound l.session = some max)
    (short : (req.line ++ [newline]).length ≤ 4096) :
    (l.ask req).step host (.hear 4096) = { l with
      waiting := some []
      reader := ⟨req.line ++ [newline]⟩
      asked := l.asked ++ [req] } := by
  obtain ⟨none, carry⟩ := empty
  have alive : shut l.session = false := by
    unfold shut
    split
    · next hungUp => rw [bound, hungUp] at listens; cases listens
    · rfl
  have asks : l.ask req = { l with
      waiting := some []
      requests := req.line ++ [newline]
      asked := l.asked ++ [req] } := by
    rw [Link.ask, silent, none, alive]
    rfl
  rw [asks, Link.step, listens, Option.map_some, turn_empty carry]
  dsimp only
  rw [carry, none, Nat.min_self, List.take_of_length_le short, List.drop_of_length_le short]
  rfl

/-- And so is its answer. -/
theorem answer_read (host : Host) (reads : ReadsWire) {resp : WireResponse}
    (waits : l.waiting = some []) (whole : l.answers = resp.line ++ [newline])
    (plain : resp.Plain) (short : (resp.line ++ [newline]).length ≤ 4096) :
    l.step host (.read 4096) = { l with
      waiting := none
      answers := []
      returned := l.returned ++ [heardAs resp.readBack] } := by
  have fits : resp.line.length ≤ maxFrame := by
    rw [List.length_append] at short
    exact Nat.le_trans (Nat.le_of_add_right_le short) (by decide)
  have turn : readTurn [] (resp.line ++ [newline]) = .inl (.ok resp.line) := by
    rcases readTurn_line (newline_not_answer resp) List.not_mem_nil fits
      (List.append_nil ([] ++ (resp.line ++ [newline]))) with ⟨ended, _⟩ | ⟨_, other⟩
    · exact ended
    · exact absurd (by simp) other
  rw [Link.step, waits, whole, Nat.min_self, List.take_of_length_le short,
    List.drop_of_length_le short]
  split
  · next silent => cases silent
  · next none => exact absurd none (by simp)
  · next buf chunk same some =>
    cases same
    rw [turn]
    simp [Link.finish, received_line reads plain]

end Steps

section Samples

/-- Mesh connects and asks for its inbox, which is empty. -/
def meshAsks [Platform] : List LinkStep := [.connect ⟨"mesh", "5f3a", specVersion⟩, .hear 4096,
  .frame (.start (DiskIssuer.after meshIssued)) 1783242060, .read 4096,
  .call "cell_inbox" (.obj [("limit", .num 20)]), .hear 4096,
  .frame (.start (DiskIssuer.after meshIssued)) 1783242061,
  .answer (.start (DiskIssuer.after meshIssued))
    (.ok (.obj [("has_more", .bool false), ("messages", .arr [])])) true,
  .read 4096]

def welcomed : WireResponse := .ok 1 (.obj [("auth_level", .str "L0Token"), ("cell", .str "mesh")])

def inboxTold : WireResponse := .ok 2 (.obj [("has_more", .bool false), ("messages", .arr [])])

def meshAsked : Link := ⟨none, [], ⟨[]⟩, ⟨.reading meshPrincipal, [welcomed, inboxTold]⟩, [],
  [hello, inboxAsked], [(some hello, welcomed), (some inboxAsked, inboxTold)],
  [.ok (.obj [("auth_level", .str "L0Token"), ("cell", .str "mesh")]),
    .ok (.obj [("has_more", .bool false), ("messages", .arr [])])]⟩

theorem welcomed_plain : welcomed.Plain := by
  refine ⟨by decide, ?_⟩
  rintro v ⟨⟩
  exact ⟨Json.ordered_of_inOrder rfl, Json.readable_flat (by simp [Json.scalar])⟩

theorem inboxTold_plain : inboxTold.Plain := by
  refine ⟨by decide, ?_⟩
  rintro v ⟨⟩
  refine ⟨Json.ordered_of_inOrder rfl, .obj ?_⟩
  intro value member
  rcases List.mem_pair.mp member with rfl | rfl
  · exact .scalar rfl
  · exact .arr (by simp)

theorem mesh_fits : Fits [hello, inboxAsked]
    [(some hello, welcomed), (some inboxAsked, inboxTold)] := by
  constructor
  · rintro req ⟨⟩
    decide +kernel
  · intro req member
    rcases List.mem_pair.mp member with rfl | rfl
    · exact ⟨⟨by decide, Json.ordered_of_inOrder rfl,
        Json.readable_flat (by simp [Json.scalar])⟩, by decide +kernel⟩
    · exact ⟨⟨by decide, Json.ordered_of_inOrder rfl,
        Json.readable_flat (by simp [Json.scalar])⟩, by decide +kernel⟩
  · intro told member
    rcases List.mem_pair.mp member with rfl | rfl
    · exact ⟨welcomed_plain, by decide +kernel⟩
    · exact ⟨inboxTold_plain, by decide +kernel⟩

/-- Mesh is told that it is welcome. -/
theorem mesh_welcomed : let _ := Platform.sample; let _ := WireReader.ofWritten
    after (Link.step sampleHost) (.start ⟨1000, 1000, none⟩) (meshAsks.take 4) =
      ⟨none, [], ⟨[]⟩, ⟨.reading meshPrincipal, [welcomed]⟩, [], [hello], [(some hello, welcomed)],
        [.ok (.obj [("auth_level", .str "L0Token"), ("cell", .str "mesh")])]⟩ := by
  let _ := Platform.sample
  let _ := WireReader.ofWritten
  let heard : Link := ⟨some [], [], ⟨hello.line ++ [newline]⟩,
    ⟨.handshaking ⟨1000, 1000, none⟩, []⟩, [], [hello], [], []⟩
  let told : Link := ⟨some [], [], ⟨[]⟩, ⟨.reading meshPrincipal, [welcomed]⟩,
    welcomed.line ++ [newline], [hello], [(some hello, welcomed)], []⟩
  have short : hello.line.length ≤ maxHandshakeBytes := by decide +kernel
  have asked : (Link.ask (.start ⟨1000, 1000, none⟩) hello).step sampleHost (.hear 4096) = heard :=
    ask_heard sampleHost rfl ⟨rfl, rfl⟩ rfl (by decide +kernel)
  have taken : (bound heard.session).bind heard.reader.turn = some (.ok hello.line, ⟨[]⟩) :=
    turn_whole (newline_not_request hello) short
  have shaken : Daemon.advance (.start (DiskIssuer.after meshIssued)) 0 heard.session
      (.frame 0 (.ok hello.line) 1783242060 : DaemonStep sampleHost) =
        ⟨.reading meshPrincipal, [welcomed]⟩ := by
    rw [advance_frame]
    exact congrArg Prod.fst (mesh_shaken [])
  have framed : heard.step sampleHost (.frame (.start (DiskIssuer.after meshIssued)) 1783242060) =
      told := by
    rw [Link.step, taken]
    dsimp only
    rw [shaken, ofWritten_request]
    simp only [Link.tell, heard, told, List.drop_zero, List.length_nil, List.map_cons, List.map_nil,
      List.nil_append, onLines_one]
  have read := answer_read (l := told) sampleHost readsWire_ofWritten rfl rfl welcomed_plain
    (by decide +kernel)
  have first : after (Link.step sampleHost) (.start ⟨1000, 1000, none⟩) (meshAsks.take 4) =
      Link.step sampleHost (Link.step sampleHost ((Link.ask (.start ⟨1000, 1000, none⟩) hello).step
        sampleHost (.hear 4096)) (.frame (.start (DiskIssuer.after meshIssued)) 1783242060))
        (.read 4096) := rfl
  intro _ _
  rw [first, asked, framed, read]
  rfl

/-- Mesh is told what its inbox holds. -/
theorem mesh_asked : let _ := Platform.sample; let _ := WireReader.ofWritten
    after (Link.step sampleHost) (.start ⟨1000, 1000, none⟩) meshAsks = meshAsked := by
  let _ := Platform.sample
  let _ := WireReader.ofWritten
  let idle : Link := ⟨none, [], ⟨[]⟩, ⟨.reading meshPrincipal, [welcomed]⟩, [], [hello],
    [(some hello, welcomed)], [.ok (.obj [("auth_level", .str "L0Token"), ("cell", .str "mesh")])]⟩
  let heard : Link := { idle with
    waiting := some []
    reader := ⟨inboxAsked.line ++ [newline]⟩
    asked := [hello, inboxAsked] }
  let served : Link := { heard with
    session := ⟨.serving meshPrincipal inboxAsked, [welcomed]⟩
    reader := ⟨[]⟩ }
  let told : Link := { meshAsked with
    waiting := some []
    answers := inboxTold.line ++ [newline]
    returned := idle.returned }
  have short : inboxAsked.line.length ≤ maxFrameBytes := by decide +kernel
  have asked : (idle.ask inboxAsked).step sampleHost (.hear 4096) = heard :=
    ask_heard sampleHost rfl ⟨rfl, rfl⟩ rfl (by decide +kernel)
  have turned : heard.reader.turn maxFrameBytes = some (.ok inboxAsked.line, ⟨[]⟩) :=
    turn_whole (newline_not_request inboxAsked) short
  have taken : (bound heard.session).bind heard.reader.turn = some (.ok inboxAsked.line, ⟨[]⟩) :=
    turned
  have serves : Daemon.advance (.start (DiskIssuer.after meshIssued)) 0 heard.session
      (.frame 0 (.ok inboxAsked.line) 1783242061 : DaemonStep sampleHost) =
        ⟨.serving meshPrincipal inboxAsked, [welcomed]⟩ := by
    rw [advance_frame]
    exact serve_dispatches (line_filled inboxAsked) (ofWritten_request inboxAsked) rfl
  have framed : heard.step sampleHost (.frame (.start (DiskIssuer.after meshIssued)) 1783242061) =
      served := by
    rw [Link.step, taken]
    dsimp only
    rw [serves, ofWritten_request]
    simp [Link.tell, heard, idle, served, onLines]
  have answered : served.step sampleHost (.answer (.start (DiskIssuer.after meshIssued))
      (.ok (.obj [("has_more", .bool false), ("messages", .arr [])])) true) = told := by
    rw [answer_served sampleHost rfl]
    rfl
  have read := answer_read (l := told) sampleHost readsWire_ofWritten rfl rfl inboxTold_plain
    (by decide +kernel)
  have first : after (Link.step sampleHost) (.start ⟨1000, 1000, none⟩) meshAsks =
      after (Link.step sampleHost) (after (Link.step sampleHost) (.start ⟨1000, 1000, none⟩)
        (meshAsks.take 4)) (meshAsks.drop 4) := rfl
  have second : after (Link.step sampleHost) idle (meshAsks.drop 4) = Link.step sampleHost
      (Link.step sampleHost (Link.step sampleHost ((idle.ask inboxAsked).step sampleHost (.hear 4096))
        (.frame (.start (DiskIssuer.after meshIssued)) 1783242061))
        (.answer (.start (DiskIssuer.after meshIssued))
          (.ok (.obj [("has_more", .bool false), ("messages", .arr [])])) true)) (.read 4096) := rfl
  intro _ _
  rw [first, show after (Link.step sampleHost) _ (meshAsks.take 4) = idle from mesh_welcomed, second,
    asked, framed, answered, read]
  rfl

/-- Mesh is told the answers to its hello and to its call. -/
theorem mesh_answered : let _ := Platform.sample; let _ := WireReader.ofWritten
    let l := after (Link.step sampleHost) (.start ⟨1000, 1000, none⟩) meshAsks
    l.asked = [hello, inboxAsked] ∧ l.returned.length = 2 ∧
      Truthful (l.session.phase = .closed) l.asked l.answered l.returned := by
  let _ := Platform.sample
  let _ := WireReader.ofWritten
  intro _ _ l
  have run : l = meshAsked := mesh_asked
  have fits : Fits l.asked l.answered := run ▸ mesh_fits
  exact ⟨run ▸ rfl, run ▸ rfl,
    calls_answered readsWire_ofWritten ⟨1000, 1000, none⟩ meshAsks fits⟩

theorem hello_returns : let _ := Platform.sample; let _ := WireReader.ofWritten
    Returns sampleHost (after (Link.step sampleHost) (.start ⟨1000, 1000, none⟩)
      [.connect ⟨"mesh", "5f3a", specVersion⟩]) (.start .new) 1783242060 (.ok .null) := by
  let _ := Platform.sample
  let _ := WireReader.ofWritten
  have fits : Fits [hello] [] :=
    mesh_fits.earlier ⟨[inboxAsked], rfl⟩ List.nil_prefix
  exact waiting_calls_return readsWire_ofWritten ⟨1000, 1000, none⟩
    [.connect ⟨"mesh", "5f3a", specVersion⟩] fits (Option.some_ne_none [])
    (by intro hungUp; cases hungUp)
    (.start .new) 1783242060 (.ok .null)

end Samples
end Client
end Crewd
