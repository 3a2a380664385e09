import Crewd.Engines.Codex

/-! Turns run on confirmed threads only. Whatever the server sends, a turn is started on an
engine thread that an earlier answer confirmed to have full access, requests are numbered in
the order in which they are written, and a turn is accepted by the answer to its own request. -/
namespace Crewd.Engines
open Fabric (EngineEvent)
open Machines

section Requests

def requestNumber (sent : Json) : Nat :=
  match sent.get "id" with
  | some (.num n) => n
  | _ => 0

def requestMethod (sent : Json) : String := (sent.getStr "method").getD ""

def requestThread (sent : Json) : Option String := (sent.get "params").bind (·.getStr "threadId")

variable {id : Nat} {method : String} {params : Json}

@[simp] theorem requestNumber_request : requestNumber (request id method params) = id := rfl

@[simp] theorem requestMethod_request : requestMethod (request id method params) = method := rfl

@[simp] theorem requestThread_request :
    requestThread (request id method params) = params.getStr "threadId" := rfl

end Requests

variable [SerdeJson]

/-- One of the lines answers the request of this number with the result. -/
def AnswerIn (lines : List (List Char)) (id : Nat) (method : String) (result : Json) : Prop :=
  ∃ line ∈ lines, ∃ msg, responseIn line = some ((id : Int), msg) ∧
    responseResult method msg = .ok result

/-- The server was asked to open the thread and answered that it has full access. -/
def Confirmed (written : List Json) (lines : List (List Char)) (thread : String) : Prop :=
  ∃ id result, verifyYolo result = .ok () ∧
    ((∃ cfg, request id "thread/start" (threadStartParams cfg) ∈ written ∧
        AnswerIn lines id "thread/start" result ∧
        (result.get "thread").bind (·.getStr "id") = some thread) ∨
      (request id "thread/resume" (threadResumeParams thread) ∈ written ∧
        AnswerIn lines id "thread/resume" result))

/-- The adapter has come up, and was given these lines meanwhile. -/
def Opened (lines : List (List Char)) (a : CodexAdapter) : Prop :=
  ∃ cfg spawn first second, CodexAdapter.new cfg spawn first second = .ok a ∧
    lines = first.lines ++ second.lines

section Invariant
variable {a b : CodexAdapter} {lines more : List (List Char)} {method : String} {params : Json}
  {io : Exchange}

theorem AnswerIn.mono {id : Nat} {result : Json} (answer : AnswerIn lines id method result)
    (more : List (List Char)) : AnswerIn (lines ++ more) id method result := by
  obtain ⟨line, member, held⟩ := answer
  exact ⟨line, List.mem_append_left _ member, held⟩

theorem Confirmed.mono {written later : List Json} {thread : String}
    (confirmed : Confirmed written lines thread) (kept : ∀ sent ∈ written, sent ∈ later)
    (more : List (List Char)) : Confirmed later (lines ++ more) thread := by
  obtain ⟨id, result, verified, ⟨cfg, asked, answer, opened⟩ | ⟨asked, answer⟩⟩ := confirmed
  · exact ⟨id, result, verified, .inl ⟨cfg, kept _ asked, answer.mono more, opened⟩⟩
  · exact ⟨id, result, verified, .inr ⟨kept _ asked, answer.mono more⟩⟩

/-- What holds of an adapter that was given these lines. -/
structure Engaged (lines : List (List Char)) (a : CodexAdapter) : Prop where
  traced : ∀ response ∈ a.responses, ∃ line ∈ lines, responseIn line = some response
  confirmed : ∀ thread, a.engineThreadId = some thread → Confirmed a.written lines thread
  rising : (a.written.map requestNumber).Pairwise (· < ·)
  numbered : ∀ sent ∈ a.written, requestNumber sent ≤ a.nextId

theorem Engaged.spawned : Engaged [] CodexAdapter.spawned where
  traced := by simp [CodexAdapter.spawned]
  confirmed := by simp [CodexAdapter.spawned]
  rising := List.Pairwise.nil
  numbered := by simp [CodexAdapter.spawned]

omit [SerdeJson] in
theorem heard_subset (a : CodexAdapter) : ∀ line ∈ a.heard lines, line ∈ lines := by
  intro line member
  unfold CodexAdapter.heard at member
  split at member
  · exact member
  · cases member

theorem Engaged.queue (engaged : Engaged lines a) (more : List (List Char)) :
    ∀ response ∈ a.responses ++ (a.heard more).filterMap responseIn,
      ∃ line ∈ lines ++ more, responseIn line = some response := by
  intro response member
  rcases List.mem_append.mp member with queued | fresh
  · obtain ⟨line, given, held⟩ := engaged.traced response queued
    exact ⟨line, List.mem_append_left _ given, held⟩
  · obtain ⟨line, given, held⟩ := List.mem_filterMap.mp fresh
    exact ⟨line, List.mem_append_right _ (heard_subset a line given), held⟩

theorem Engaged.written (engaged : Engaged lines a) (method : String) (params : Json) :
    ((a.written ++ [request (a.nextId + 1) method params]).map requestNumber).Pairwise (· < ·) ∧
      ∀ sent ∈ a.written ++ [request (a.nextId + 1) method params],
        requestNumber sent ≤ a.nextId + 1 := by
  constructor
  · rw [List.map_append, List.pairwise_append]
    refine ⟨engaged.rising, List.pairwise_singleton _ _, ?_⟩
    intro earlier inside later last
    obtain ⟨sent, member, rfl⟩ := List.mem_map.mp inside
    obtain rfl := List.mem_singleton.mp last
    exact Nat.lt_succ_of_le (engaged.numbered sent member)
  · intro sent member
    rcases List.mem_append.mp member with old | new
    · exact Nat.le_succ_of_le (engaged.numbered sent old)
    · obtain rfl := List.mem_singleton.mp new
      exact Nat.le_refl _

/-- Whatever a call comes to, the adapter stays engaged, on the thread it was on. -/
theorem Engaged.called {r : Except BusError Json} (engaged : Engaged lines a)
    (called : Called a method params io r b) : Engaged (lines ++ io.lines) b := by
  have traced : ∀ response ∈ a.responses, ∃ line ∈ lines ++ io.lines,
      responseIn line = some response :=
    fun response member => engaged.queue io.lines response (List.mem_append_left _ member)
  have confirmed : ∀ {later : List Json}, (∀ sent ∈ a.written, sent ∈ later) → ∀ thread,
      a.engineThreadId = some thread → Confirmed later (lines ++ io.lines) thread :=
    fun kept thread on => (engaged.confirmed thread on).mono kept io.lines
  have appended : ∀ sent ∈ a.written, sent ∈ a.written ++ [request (a.nextId + 1) method params] :=
    fun sent member => List.mem_append_left _ member
  obtain ⟨rising, numbered⟩ := engaged.written method params
  cases called with
  | unwritten e _ =>
    exact ⟨traced, confirmed fun sent member => member, engaged.rising,
      fun sent member => Nat.le_succ_of_le (engaged.numbered sent member)⟩
  | unflushed e _ => exact ⟨traced, confirmed appended, rising, numbered⟩
  | unanswered e _ => exact ⟨by simp [CodexAdapter.asked], confirmed appended, rising, numbered⟩
  | answered msg left _ answers later =>
    exact ⟨fun response member => engaged.queue io.lines response (later.subset member),
      confirmed appended, rising, numbered⟩

/-- A call that succeeds has written its request and was given the answer to it. -/
theorem Engaged.answered {result : Json} (engaged : Engaged lines a)
    (called : Called a method params io (.ok result) b) :
    b.written = a.written ++ [request (a.nextId + 1) method params] ∧
      AnswerIn (lines ++ io.lines) (a.nextId + 1) method result := by
  generalize outcome : (Except.ok result : Except BusError Json) = r at called
  cases called with
  | unwritten | unflushed | unanswered => cases outcome
  | answered msg left _ answers _ =>
    obtain ⟨line, given, held⟩ := engaged.queue io.lines _ answers
    exact ⟨rfl, line, given, msg, held, outcome.symm⟩

end Invariant
section Steps
variable {a b : CodexAdapter} {lines : List (List Char)} {payload thread : String} {io : Exchange}
  {r : Except BusError Unit}

theorem Engaged.started (engaged : Engaged lines a) (started : Started a payload io r b) :
    Engaged (lines ++ io.lines) b := by
  cases started with
  | threadless e _ =>
    exact ⟨fun response member => engaged.queue io.lines response (List.mem_append_left _ member),
      fun thread on => (engaged.confirmed thread on).mono (fun _ member => member) _,
      engaged.rising, engaged.numbered⟩
  | refused e on called => exact engaged.called called
  | accepted on called echo => exact { engaged.called called with }

theorem Engaged.resumed (engaged : Engaged lines a) (resumed : Resumed a thread io r b) :
    Engaged (lines ++ io.lines) b := by
  cases resumed with
  | refused e called => exact engaged.called called
  | reopened called verified =>
    obtain ⟨written, answer⟩ := engaged.answered called
    refine { engaged.called called with confirmed := ?_ }
    rintro _ ⟨⟩
    exact ⟨_, _, verified, .inr ⟨written ▸ List.mem_append_right _ List.mem_cons_self, answer⟩⟩

theorem Engaged.reads (engaged : Engaged lines a) (more : List (List Char)) (ends : Bool) :
    Engaged (lines ++ more) (a.reads more ends) := by
  rw [CodexAdapter.reads_eq]
  exact ⟨engaged.queue more,
    fun thread on => (engaged.confirmed thread on).mono (fun _ member => member) _,
    engaged.rising, engaged.numbered⟩

theorem Engaged.interrupted (engaged : Engaged lines a) (sending : Sending) :
    Engaged lines (a.interrupt sending) := by
  rcases a.interrupt_cases sending with same | ⟨thread, turn, written, on, flying, same, sent⟩
  · rw [same]
    exact engaged
  · rw [same]
    obtain ⟨rising, numbered⟩ := engaged.written "turn/interrupt" (turnInterruptParams thread turn)
    have kept : ∀ other, a.engineThreadId = some other → Confirmed (a.written ++ written) lines other := by
      intro other on
      have confirmed := (engaged.confirmed other on).mono
        (fun sent member => List.mem_append_left written member) []
      rwa [List.append_nil] at confirmed
    rcases sent with rfl | rfl
    · refine ⟨engaged.traced, kept, ?_, ?_⟩
      · rw [List.append_nil]
        exact engaged.rising
      · rw [List.append_nil]
        exact fun sent member => Nat.le_succ_of_le (engaged.numbered sent member)
    · exact ⟨engaged.traced, kept, rising, numbered⟩

theorem Engaged.step (engaged : Engaged lines a) (step : CodexStep) :
    Engaged (lines ++ step.lines) (a.step step) := by
  cases step with
  | reads more ends => exact engaged.reads more ends
  | startTurn payload io => exact engaged.started (a.startTurn_started payload io)
  | pollEvents =>
    rw [CodexStep.lines, List.append_nil]
    exact { engaged with }
  | interrupt sending =>
    rw [CodexStep.lines, List.append_nil]
    exact engaged.interrupted sending
  | resumeThread thread io => exact engaged.resumed (a.resumeThread_resumed thread io)
  | shutdown left => exact { engaged.reads left true with }

theorem Opened.engaged (opened : Opened lines a) : Engaged lines a := by
  obtain ⟨cfg, spawn, first, second, new, rfl⟩ := opened
  unfold CodexAdapter.new at new
  split at new
  · cases new
  unfold CodexAdapter.initializeEngine at new
  have called := CodexAdapter.spawned.call_called "initialize" initializeParams first
  generalize CodexAdapter.spawned.call "initialize" initializeParams first = outcome at called new
  obtain ⟨r, b⟩ := outcome
  have ready := Engaged.spawned.called called
  cases r with
  | error e => cases new
  | ok hello =>
    dsimp only at new
    unfold CodexAdapter.threadStart at new
    have opening := b.call_called "thread/start" (threadStartParams cfg) second
    generalize b.call "thread/start" (threadStartParams cfg) second = outcome at opening new
    obtain ⟨r, c⟩ := outcome
    have started := ready.called opening
    cases r with
    | error e => cases new
    | ok resp =>
      dsimp only at new
      split at new
      · next failed =>
        split at failed
        · cases new
        · cases failed
      · next verified' =>
        split at verified'
        · cases verified'
        · next verified =>
          cases verified'
          cases new
          obtain ⟨written, answer⟩ := ready.answered opening
          refine { started with confirmed := ?_ }
          intro thread named
          have asked : request (b.nextId + 1) "thread/start" (threadStartParams cfg) ∈ c.written :=
            written ▸ List.mem_append_right _ List.mem_cons_self
          exact ⟨_, resp, verified, .inl ⟨cfg, asked, answer, named⟩⟩

/-- An adapter that has come up and been used, with the lines it was given. -/
def Reached (lines : List (List Char)) (a : CodexAdapter) : Prop :=
  ∃ opening first steps, Opened opening first ∧ a = after CodexAdapter.step first steps ∧
    lines = opening ++ steps.flatMap CodexStep.lines

/-- Runs keep an adapter engaged. -/
theorem Reached.engaged (reached : Reached lines a) : Engaged lines a := by
  obtain ⟨opening, first, steps, opened, rfl, rfl⟩ := reached
  apply history (R := fun past b => Engaged (opening ++ past.flatMap CodexStep.lines) b)
  · rw [List.flatMap_nil, List.append_nil]
    exact opened.engaged
  · intro past b step engaged
    rw [List.flatMap_append, List.flatMap_singleton, ← List.append_assoc]
    exact engaged.step step

/-- The requests that a step writes. -/
def CodexAdapter.writes (a : CodexAdapter) (step : CodexStep) : List Json :=
  (a.step step).written.drop a.written.length

theorem Called.written {method : String} {params : Json} {r : Except BusError Json}
    (called : Called a method params io r b) :
    ∃ sent, b.written = a.written ++ sent ∧
      (sent = [] ∨ sent = [request (a.nextId + 1) method params]) := by
  cases called with
  | unwritten e _ => exact ⟨[], (List.append_nil _).symm, .inl rfl⟩
  | unflushed e _ => exact ⟨_, rfl, .inr rfl⟩
  | unanswered e _ => exact ⟨_, rfl, .inr rfl⟩
  | answered msg left _ _ _ => exact ⟨_, rfl, .inr rfl⟩

/-- The one request that a step may write. -/
inductive Writes (a : CodexAdapter) : CodexStep → Json → Prop where
  | turnStart {payload thread : String} {io : Exchange} (on : a.engineThreadId = some thread) :
      Writes a (.startTurn payload io)
        (request (a.nextId + 1) "turn/start" (turnStartParams thread payload))
  | threadResume {thread : String} {io : Exchange} : Writes a (.resumeThread thread io)
      (request (a.nextId + 1) "thread/resume" (threadResumeParams thread))
  | turnInterrupt {thread turn : String} {sending : Sending} (on : a.engineThreadId = some thread)
      (flying : a.turnInFlight = some turn) : Writes a (.interrupt sending)
        (request (a.nextId + 1) "turn/interrupt" (turnInterruptParams thread turn))

/-- The step has written this adapter's requests and at most one more. -/
def WroteOne (a : CodexAdapter) (step : CodexStep) (b : CodexAdapter) : Prop :=
  ∃ sent, b.written = a.written ++ sent ∧ (sent = [] ∨ ∃ one, sent = [one] ∧ Writes a step one)

omit [SerdeJson] in
theorem WroteOne.silent {step : CodexStep} (same : b.written = a.written) : WroteOne a step b :=
  ⟨[], by rw [same, List.append_nil], .inl rfl⟩

theorem WroteOne.called {step : CodexStep} {method : String} {params : Json}
    {r : Except BusError Json} (called : Called a method params io r b)
    (writes : Writes a step (request (a.nextId + 1) method params)) : WroteOne a step b := by
  obtain ⟨sent, same, kinds⟩ := called.written
  exact ⟨sent, same, kinds.imp_right fun single => ⟨_, single, writes⟩⟩

theorem Started.wrote (started : Started a payload io r b) :
    WroteOne a (.startTurn payload io) b := by
  cases started with
  | threadless e _ => exact .silent rfl
  | refused e on called => exact .called called (.turnStart on)
  | accepted on called echo =>
    have wrote : WroteOne a (.startTurn payload io) _ := .called called (.turnStart on)
    exact wrote

theorem Resumed.wrote (resumed : Resumed a thread io r b) :
    WroteOne a (.resumeThread thread io) b := by
  cases resumed with
  | refused e called => exact .called called .threadResume
  | reopened called verified =>
    have wrote : WroteOne a (.resumeThread thread io) _ := .called called .threadResume
    exact wrote

theorem step_wrote (a : CodexAdapter) (step : CodexStep) : WroteOne a step (a.step step) := by
  cases step with
  | reads lines ends =>
    rw [CodexAdapter.step, CodexAdapter.reads_eq]
    exact .silent rfl
  | startTurn payload io => exact (a.startTurn_started payload io).wrote
  | pollEvents => exact .silent rfl
  | interrupt sending =>
    rcases a.interrupt_cases sending with same | ⟨thread, turn, sent, on, flying, same, kinds⟩
    · rw [CodexAdapter.step, same]
      exact .silent rfl
    · rw [CodexAdapter.step, same]
      exact ⟨sent, rfl, kinds.imp_right fun single => ⟨_, single, .turnInterrupt on flying⟩⟩
  | resumeThread thread io => exact (a.resumeThread_resumed thread io).wrote
  | shutdown left =>
    rw [CodexAdapter.step, CodexAdapter.shutdown, CodexAdapter.reads_eq]
    exact .silent rfl

theorem writes_of_mem {step : CodexStep} {sent : Json} (member : sent ∈ a.writes step) :
    Writes a step sent := by
  obtain ⟨sent', same, kinds⟩ := step_wrote a step
  rw [CodexAdapter.writes, same, List.drop_left] at member
  rcases kinds with rfl | ⟨one, rfl, writes⟩
  · cases member
  · obtain rfl := List.mem_singleton.mp member
    exact writes

end Steps

section Results
variable {a : CodexAdapter} {lines : List (List Char)}

/-- What the request asks for is full access without approvals. -/
def asksFullAccess (sent : Json) : Prop :=
  let params := (sent.get "params").getD .null
  params.getStr "approvalPolicy" = some "never" ∧
    (params.getStr "sandbox" = some "danger-full-access" ∨
      (params.get "sandboxPolicy").bind (·.getStr "type") = some "dangerFullAccess")

/-- Whatever the server sent before, a turn is started on a thread that it had confirmed. -/
theorem turns_on_confirmed_threads (reached : Reached lines a) (step : CodexStep) (sent : Json)
    (writes : sent ∈ a.writes step) (turn : requestMethod sent = "turn/start") :
    asksFullAccess sent ∧
      ∃ thread, requestThread sent = some thread ∧ Confirmed a.written lines thread := by
  have kind := writes_of_mem writes
  cases kind with
  | turnStart on => exact ⟨⟨rfl, .inr rfl⟩, _, rfl, reached.engaged.confirmed _ on⟩
  | threadResume => exact absurd turn (by simp)
  | turnInterrupt on flying => exact absurd turn (by simp)

omit [SerdeJson] in
theorem codexAdapter_reached : let _ := codexReader
    Reached ((answeredBy helloAnswer).lines ++ (answeredBy threadAnswer).lines) codexAdapter := by
  let _ := codexReader
  exact ⟨_, codexAdapter, [], ⟨codexCfg, _, _, _, codexAdapter_new, rfl⟩, rfl,
    (List.append_nil _).symm⟩

omit [SerdeJson] in
theorem first_turn_confirmed : let _ := codexReader
    ∃ sent lines, sent ∈ codexAdapter.writes (.startTurn "go" (answeredBy turnAnswer)) ∧
      asksFullAccess sent ∧ ∃ thread, requestThread sent = some thread ∧
        Confirmed codexAdapter.written lines thread := by
  let _ := codexReader
  have writes : request 3 "turn/start" (turnStartParams "th-1" "go") ∈
      codexAdapter.writes (.startTurn "go" (answeredBy turnAnswer)) := List.mem_cons_self
  exact ⟨_, _, writes, turns_on_confirmed_threads codexAdapter_reached _ _ writes rfl⟩

/-- A turn is accepted by the answer to its own request, whose number no earlier request
bears, and the answer, if it speaks of the policy, does not take it back. -/
theorem accepted_turns_answered (reached : Reached lines a) (payload : String) (io : Exchange)
    (accepted : (a.startTurn payload io).1 = .ok ()) :
    ∃ thread result, a.engineThreadId = some thread ∧
      (a.startTurn payload io).2.written =
        a.written ++ [request (a.nextId + 1) "turn/start" (turnStartParams thread payload)] ∧
      ((a.startTurn payload io).2.written.map requestNumber).Pairwise (· < ·) ∧
      AnswerIn (lines ++ io.lines) (a.nextId + 1) "turn/start" result ∧
      ((result.get "approvalPolicy").isSome ∨ (result.get "sandbox").isSome →
        verifyYolo result = .ok ()) ∧
      (a.startTurn payload io).2.pending = a.pending ++ [.accepted (CodexAdapter.turnId result)] := by
  have started := a.startTurn_started payload io
  have rising := (reached.engaged.started started).rising
  generalize a.startTurn payload io = outcome at *
  obtain ⟨r, c⟩ := outcome
  cases started with
  | threadless | refused => cases accepted
  | @accepted thread result d on called echo =>
    obtain ⟨written, answer⟩ := reached.engaged.answered called
    refine ⟨thread, result, on, written, rising, answer, ?_, ?_⟩
    · intro said
      rw [verifyYoloIfPresent, if_pos said] at echo
      exact echo
    · rw [called.kept.2.2]

omit [SerdeJson] in
theorem first_turn_answered : let _ := codexReader
    ∃ lines thread result, codexAdapter.engineThreadId = some thread ∧
      AnswerIn lines 3 "turn/start" result ∧
      (codexAdapter.startTurn "go" (answeredBy turnAnswer)).2.pending =
        [.accepted (CodexAdapter.turnId result)] := by
  let _ := codexReader
  obtain ⟨thread, result, on, _, _, answer, _, pending⟩ :=
    accepted_turns_answered codexAdapter_reached "go" (answeredBy turnAnswer) rfl
  exact ⟨_, thread, result, on, answer, pending⟩

end Results
end Crewd.Engines
