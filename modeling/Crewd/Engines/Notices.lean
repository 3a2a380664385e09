import Crewd.Engines.Policy

/-! What a poll reports. Each poll gives the acceptances of the turns started since the poll
before, then the ends of turns that the server has announced since, each once and in order;
an interrupt names a turn that was accepted and whose end has not been reported. -/
namespace Crewd.Engines
open Fabric (EngineEvent)
open Machines

variable [SerdeJson]

namespace CodexAdapter

/-- The lines that the reader thread handles during a step. -/
def hearing (a : CodexAdapter) : CodexStep → List (List Char)
  | .reads lines _ => a.heard lines
  | .startTurn _ io => if a.engineThreadId.isSome ∧ a.Listens io then a.heard io.lines else []
  | .resumeThread _ io => if a.Listens io then a.heard io.lines else []
  | .shutdown left => a.heard left
  | .pollEvents | .interrupt _ => []

/-- The ends of turns among what a step hears. -/
def notices (a : CodexAdapter) (step : CodexStep) : List EngineEvent :=
  ((a.hearing step).filterMap notificationIn).filterMap noticed

/-- The acceptance of a turn that a step starts. -/
def accepts (a : CodexAdapter) : CodexStep → List EngineEvent
  | .startTurn payload io =>
    match a.startTurn payload io with
    | (.ok (), b) => [.accepted (b.turnInFlight.getD "")]
    | (.error _, _) => []
  | _ => []

omit [SerdeJson] in
/-- The ends of turns that a poll reports. -/
def ended (a : CodexAdapter) : CodexStep → List EngineEvent
  | .pollEvents => a.notifications.filterMap noticed
  | _ => []

omit [SerdeJson] in
def begun (a : CodexAdapter) : CodexStep → List EngineEvent
  | .pollEvents => a.pending
  | _ => []

end CodexAdapter
open CodexAdapter

section Steps
variable {a b : CodexAdapter} {method payload thread : String} {params : Json} {io : Exchange}

theorem Called.notifications {r : Except BusError Json} (called : Called a method params io r b) :
    b.notifications = a.notifications ++
      (if a.Listens io then a.heard io.lines else []).filterMap notificationIn := by
  cases called with
  | unwritten e deaf => simp [deaf]
  | unflushed e deaf => simp [deaf]
  | unanswered e listens => simp [asked, listens]
  | answered msg left listens answers later => simp [asked, listens]

theorem Started.notifications {r : Except BusError Unit} (started : Started a payload io r b) :
    b.notifications = a.notifications ++
      (a.hearing (.startTurn payload io)).filterMap notificationIn := by
  cases started with
  | threadless e off => simp [hearing, off]
  | refused e on called => simpa [hearing, on] using called.notifications
  | accepted on called echo => simpa [hearing, on] using called.notifications

theorem Resumed.notifications {r : Except BusError Unit} (resumed : Resumed a thread io r b) :
    b.notifications = a.notifications ++
      (a.hearing (.resumeThread thread io)).filterMap notificationIn := by
  cases resumed with
  | refused e called => exact called.notifications
  | reopened called verified => exact called.notifications

/-- The announcements wait for the poll in the order in which they are heard. -/
theorem notices_balanced : Balanced CodexAdapter.step (fun _ => True)
    (fun a => a.notifications.filterMap noticed) notices ended := by
  intro a step _
  refine ⟨trivial, ?_⟩
  have appended : ∀ {b : CodexAdapter}, b.notifications =
      a.notifications ++ (a.hearing step).filterMap notificationIn →
      a.notifications.filterMap noticed ++ a.notices step = b.notifications.filterMap noticed := by
    intro b same
    rw [same, List.filterMap_append]
    rfl
  cases step with
  | reads lines ends =>
    apply appended
    rw [CodexAdapter.step, reads_eq]
    rfl
  | startTurn payload io => exact appended (a.startTurn_started payload io).notifications
  | pollEvents => rfl
  | interrupt sending =>
    apply appended
    rcases a.interrupt_cases sending with same | ⟨thread, turn, sent, on, flying, same, kinds⟩
    · rw [CodexAdapter.step, same]
      exact (List.append_nil _).symm
    · rw [CodexAdapter.step, same]
      exact (List.append_nil _).symm
  | resumeThread thread io => exact appended (a.resumeThread_resumed thread io).notifications
  | shutdown left =>
    apply appended
    rw [CodexAdapter.step, shutdown, reads_eq]
    rfl

theorem Started.pending {r : Except BusError Unit} (started : Started a payload io r b) :
    b.pending = a.pending ++ (match (r, b) with
      | (.ok (), b) => [.accepted (b.turnInFlight.getD "")]
      | (.error _, _) => []) := by
  cases started with
  | threadless e off => simp
  | refused e on called => simp [called.kept]
  | accepted on called echo => simp [called.kept]

/-- So do the acceptances, apart from them. -/
theorem accepts_balanced :
    Balanced CodexAdapter.step (fun _ => True) CodexAdapter.pending accepts begun := by
  intro a step _
  refine ⟨trivial, ?_⟩
  cases step with
  | reads lines ends =>
    rw [CodexAdapter.step, reads_eq]
    exact List.append_nil _
  | startTurn payload io => exact (a.startTurn_started payload io).pending.symm
  | pollEvents => rfl
  | interrupt sending =>
    rcases a.interrupt_cases sending with same | ⟨thread, turn, sent, on, flying, same, kinds⟩
    · rw [CodexAdapter.step, same]
      exact List.append_nil _
    · rw [CodexAdapter.step, same]
      exact List.append_nil _
  | resumeThread thread io =>
    have resumed := a.resumeThread_resumed thread io
    rw [CodexAdapter.step]
    generalize a.resumeThread thread io = outcome at resumed
    obtain ⟨r, b⟩ := outcome
    cases resumed with
    | refused e called => exact (List.append_nil _).trans called.kept.2.2.symm
    | reopened called verified => exact (List.append_nil _).trans called.kept.2.2.symm
  | shutdown left =>
    rw [CodexAdapter.step, shutdown, reads_eq]
    exact List.append_nil _

end Steps
/-- Without a poll nothing is reported. -/
theorem quiet_reports {since : List CodexStep} (quiet : .pollEvents ∉ since) (a : CodexAdapter) :
    along CodexAdapter.step begun a since = [] ∧ along CodexAdapter.step ended a since = [] := by
  constructor
  · apply along_eq_nil
    intro step member t
    cases step with
    | pollEvents => exact absurd member quiet
    | reads | startTurn | interrupt | resumeThread | shutdown => rfl
  · apply along_eq_nil
    intro step member t
    cases step with
    | pollEvents => exact absurd member quiet
    | reads | startTurn | interrupt | resumeThread | shutdown => rfl

/-- A poll reports the turns accepted since the poll before it, and then the ends of turns
announced since, each of them once and in order. -/
theorem poll_reports (a : CodexAdapter) (since : List CodexStep) (quiet : .pollEvents ∉ since) :
    (after CodexAdapter.step a (.pollEvents :: since)).pollEvents.1 =
      along CodexAdapter.step accepts a.pollEvents.2 since ++
        along CodexAdapter.step notices a.pollEvents.2 since := by
  obtain ⟨unbegun, unended⟩ := quiet_reports quiet a.pollEvents.2
  have pending := accepts_balanced.held_since trivial rfl unbegun
  have waiting := notices_balanced.held_since trivial rfl unended
  rw [after_cons, ← pending, ← waiting]
  rfl

omit [SerdeJson] in
theorem first_turn_reported : let _ := codexReader
    (after CodexAdapter.step codexAdapter [.pollEvents, .startTurn "go" (answeredBy turnAnswer),
      .reads [turnNotice.render] false]).pollEvents.1 = [.accepted "tn-1", .final "done"] := by
  let _ := codexReader
  exact (poll_reports codexAdapter [.startTurn "go" (answeredBy turnAnswer),
    .reads [turnNotice.render] false] (by simp)).trans rfl

section Interrupts
variable {a : CodexAdapter} {lines : List (List Char)}

/-- The turn was accepted in the run, has not been interrupted since, and neither its end
nor another acceptance has come. -/
def Open (a : CodexAdapter) (steps : List CodexStep) (turn : String) : Prop :=
  ∃ before payload io since, steps = before ++ .startTurn payload io :: since ∧
    (after CodexAdapter.step a before).accepts (.startTurn payload io) = [.accepted turn] ∧
    (∀ sending, .interrupt sending ∉ since) ∧
    along CodexAdapter.step accepts (after CodexAdapter.step a (before ++ [.startTurn payload io]))
      since = [] ∧
    along CodexAdapter.step ended (after CodexAdapter.step a (before ++ [.startTurn payload io]))
      since = []

theorem Open.concat {steps : List CodexStep} {turn : String} {step : CodexStep}
    (opened : Open a steps turn) (other : ∀ sending, step ≠ .interrupt sending)
    (unaccepting : (after CodexAdapter.step a steps).accepts step = [])
    (unending : (after CodexAdapter.step a steps).ended step = []) :
    Open a (steps ++ [step]) turn := by
  obtain ⟨before, payload, io, since, rfl, accepted, uninterrupted, unaccepted, unended⟩ := opened
  have split : before ++ .startTurn payload io :: since =
      (before ++ [.startTurn payload io]) ++ since := by simp
  rw [split, after_inputs_append] at unaccepting unending
  refine ⟨before, payload, io, since ++ [step], by simp, accepted, ?_, ?_, ?_⟩
  · intro sending member
    rcases List.mem_append.mp member with earlier | last
    · exact uninterrupted sending earlier
    · exact other sending (List.mem_singleton.mp last).symm
  · rw [along_concat, unaccepted, unaccepting, List.append_nil]
  · rw [along_concat, unended, unending, List.append_nil]

/-- A turn is in flight on an engine thread only. -/
def Manned (a : CodexAdapter) : Prop := a.turnInFlight.isSome → a.engineThreadId.isSome

/-- Where a turn that is in flight after a step comes from. -/
inductive Flies (a : CodexAdapter) (step : CodexStep) (turn : String) : Prop where
  | begins {payload : String} {io : Exchange} (starts : step = .startTurn payload io)
      (accepted : a.accepts step = [.accepted turn])
  | goesOn (flying : a.turnInFlight = some turn) (other : ∀ sending, step ≠ .interrupt sending)
      (unaccepting : a.accepts step = []) (unending : a.ended step = [])

theorem Manned.startTurn (manned : Manned a) {payload turn : String} {io : Exchange}
    (flying : (a.startTurn payload io).2.turnInFlight = some turn) :
    Flies a (.startTurn payload io) turn ∧ (a.startTurn payload io).2.engineThreadId.isSome := by
  have started := a.startTurn_started payload io
  have accepts : a.accepts (.startTurn payload io) = match a.startTurn payload io with
      | (.ok (), b) => [.accepted (b.turnInFlight.getD "")]
      | (.error _, _) => [] := rfl
  generalize a.startTurn payload io = outcome at *
  obtain ⟨r, b⟩ := outcome
  dsimp only at started flying ⊢
  cases started with
  | threadless e off => exact ⟨.goesOn flying (by simp) accepts rfl, manned (by simp [flying])⟩
  | refused e on called =>
    obtain ⟨thread, flight, _⟩ := called.kept
    exact ⟨.goesOn (flight ▸ flying) (by simp) accepts rfl, by simp [thread, on]⟩
  | accepted on called echo =>
    cases flying
    exact ⟨.begins rfl accepts, by simp [called.kept.1, on]⟩

omit [SerdeJson] in
theorem Manned.interrupt (manned : Manned a) (sending : Sending) :
    (a.interrupt sending).turnInFlight = none := by
  unfold CodexAdapter.interrupt
  split
  · rfl
  · next missing =>
    cases flying : a.turnInFlight with
    | none => rfl
    | some turn =>
      obtain ⟨thread, on⟩ := Option.isSome_iff_exists.mp (manned (by simp [flying]))
      exact (missing thread turn on flying).elim

theorem Manned.resumeThread (manned : Manned a) {thread turn : String} {io : Exchange}
    (flying : (a.resumeThread thread io).2.turnInFlight = some turn) :
    Flies a (.resumeThread thread io) turn ∧ (a.resumeThread thread io).2.engineThreadId.isSome := by
  have resumed := a.resumeThread_resumed thread io
  generalize a.resumeThread thread io = outcome at *
  obtain ⟨r, b⟩ := outcome
  dsimp only at resumed flying ⊢
  cases resumed with
  | refused e called =>
    obtain ⟨thread, flight, _⟩ := called.kept
    rw [flight] at flying
    exact ⟨.goesOn flying (by simp) rfl rfl, by simpa [thread] using manned (by simp [flying])⟩
  | reopened called verified => exact ⟨.goesOn (called.kept.2.1 ▸ flying) (by simp) rfl rfl, rfl⟩

theorem Manned.flies (manned : Manned a) {step : CodexStep} {turn : String}
    (flying : (a.step step).turnInFlight = some turn) :
    Flies a step turn ∧ (a.step step).engineThreadId.isSome := by
  cases step with
  | reads lines ends =>
    rw [CodexAdapter.step, reads_eq] at flying ⊢
    exact ⟨.goesOn flying (by simp) rfl rfl, manned (by simp_all)⟩
  | startTurn payload io => exact manned.startTurn flying
  | pollEvents =>
    rw [CodexAdapter.step, pollEvents] at flying
    dsimp only at flying
    split at flying
    · next none =>
      exact ⟨.goesOn flying (by simp) rfl (List.isEmpty_iff.mp none), manned (by simp [flying])⟩
    · cases flying
  | interrupt sending =>
    rw [CodexAdapter.step, manned.interrupt] at flying
    cases flying
  | resumeThread thread io => exact manned.resumeThread flying
  | shutdown left =>
    rw [CodexAdapter.step, shutdown, reads_eq] at flying ⊢
    exact ⟨.goesOn flying (by simp) rfl rfl, manned (by simp_all)⟩

theorem Opened.idle (opened : Opened lines a) : a.turnInFlight = none := by
  obtain ⟨cfg, spawn, first, second, new, rfl⟩ := opened
  unfold CodexAdapter.new at new
  split at new
  · cases new
  unfold initializeEngine at new
  have called := (spawned.call_called "initialize" initializeParams first).kept
  generalize spawned.call "initialize" initializeParams first = outcome at called new
  obtain ⟨r, b⟩ := outcome
  cases r with
  | error e => cases new
  | ok hello =>
    dsimp only at new
    unfold threadStart at new
    have opening := (b.call_called "thread/start" (threadStartParams cfg) second).kept
    generalize b.call "thread/start" (threadStartParams cfg) second = outcome at opening new
    obtain ⟨r, c⟩ := outcome
    cases r with
    | error e => cases new
    | ok resp =>
      dsimp only at new
      split at new
      · cases new
      · next kept =>
        split at kept
        · cases kept
        · cases kept
          cases new
          exact opening.2.1.trans called.2.1

theorem Opened.open_of_flying (opened : Opened lines a) (steps : List CodexStep) :
    Manned (after CodexAdapter.step a steps) ∧ ∀ turn,
      (after CodexAdapter.step a steps).turnInFlight = some turn → Open a steps turn := by
  induction steps using List.reverseRecOn with
  | nil => simp [Manned, opened.idle]
  | append_singleton past step ih =>
    obtain ⟨manned, earlier⟩ := ih
    rw [after_concat]
    constructor
    · intro some
      obtain ⟨turn, flying⟩ := Option.isSome_iff_exists.mp some
      exact (manned.flies flying).2
    · intro turn flying
      cases (manned.flies flying).1 with
      | begins starts accepted =>
        subst starts
        exact ⟨past, _, _, [], rfl, accepted, by simp, rfl, rfl⟩
      | goesOn before other unaccepting unending =>
        exact (earlier turn before).concat other unaccepting unending

def requestTurn (sent : Json) : Option String := (sent.get "params").bind (·.getStr "turnId")

/-- An interrupt asks for the end of a turn that was accepted, and whose end has neither been
reported nor been asked for; it names the last turn that was accepted. -/
theorem interrupts_open_turns (opened : Opened lines a) (steps : List CodexStep)
    (sending : Sending) (sent : Json)
    (writes : sent ∈ (after CodexAdapter.step a steps).writes (.interrupt sending)) :
    requestMethod sent = "turn/interrupt" ∧
      ∃ turn, requestTurn sent = some turn ∧ Open a steps turn := by
  have kind := writes_of_mem writes
  cases kind with
  | turnInterrupt on flying => exact ⟨rfl, _, rfl, (opened.open_of_flying steps).2 _ flying⟩

omit [SerdeJson] in
theorem first_turn_interrupted : let _ := codexReader
    ∃ sent turn, requestTurn sent = some turn ∧ turn = "tn-1" ∧
      Open codexAdapter [.startTurn "go" (answeredBy turnAnswer)] turn := by
  let _ := codexReader
  have opened : Opened ((answeredBy helloAnswer).lines ++ (answeredBy threadAnswer).lines)
    codexAdapter := ⟨codexCfg, _, _, _, codexAdapter_new, rfl⟩
  have writes : request 4 "turn/interrupt" (turnInterruptParams "th-1" "tn-1") ∈
    (after CodexAdapter.step codexAdapter [.startTurn "go" (answeredBy turnAnswer)]).writes
      (.interrupt .sent) := List.mem_cons_self
  obtain ⟨_, turn, names, opened⟩ := interrupts_open_turns opened _ _ _ writes
  exact ⟨_, turn, names, (Option.some.inj names).symm, opened⟩

end Interrupts
end Crewd.Engines
