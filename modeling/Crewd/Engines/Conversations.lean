import Crewd.Engines.Link

/-! What the owner hears of the requests. However the two processes take turns, and wherever
the child is killed, the events that are polled are the first of those that the requests call
for; when the pipes of a living child are empty they are all of them. -/
namespace Crewd.Engines
open Fabric (EngineEvent)
open Machines

variable [SerdeJson]

namespace Link

/-- What is seen of the adapter during a step. -/
def look {α : Type} (f : ClaudeAdapter → AdapterStep → List α) (l : Link) (s : LinkStep) : List α :=
  ((l.does s).map (f l.adapter)).getD []

def hearing (l : Link) (s : LinkStep) : List Json := l.look ClaudeAdapter.hearing s

def asks (l : Link) (s : LinkStep) : List Op := l.look ClaudeAdapter.asks s

def polled (l : Link) (s : LinkStep) : List EngineEvent := l.look ClaudeAdapter.polled s

omit [SerdeJson] in
theorem look_of_does {α : Type} {f : ClaudeAdapter → AdapterStep → List α} {l : Link} {s : LinkStep}
    {step : AdapterStep} (does : l.does s = some step) : l.look f s = f l.adapter step := by
  rw [look, does]
  rfl

omit [SerdeJson] in
theorem look_of_none {α : Type} {f : ClaudeAdapter → AdapterStep → List α} {l : Link} {s : LinkStep}
    (does : l.does s = none) : l.look f s = [] := by
  rw [look, does]
  rfl

end Link
open Link

/-- What has been asked and told, against what is in the pipes. -/
inductive Book (flags : EngineFlags) (asked : List Op) (told : List Json) (l : Link) : Prop where
  | going (handled left : List Op) (coming : List Json) (running : l.running = true)
      (ready : l.adapter.child.stdin = true ∧ l.adapter.child.alive = true)
      (asks : asked = handled ++ left)
      (input : l.input = Lines.join ((left.map Op.toValue).map Json.render))
      (count : l.turnCounter = after countOp 0 handled)
      (tells : replies flags 0 handled = told ++ coming)
      (output : l.output ++ l.saying = Lines.join (coming.map Json.render))
  | stopped (coming : List Json) (gone : l.running = false)
      (tells : told ++ coming <+: replies flags 0 asked)
      (output : l.output <+: Lines.join (coming.map Json.render))
      (deaf : l.adapter.child.alive = false → l.output = [])

section Steps
variable {flags : EngineFlags} {asked : List Op} {told : List Json} {l : Link}

/-- The adapter asks for something, or not, and the engine is not concerned. -/
theorem Book.act (book : Book flags asked told l) (step : AdapterStep)
    (quiet : l.adapter.hearing step = [])
    (kept : (l.adapter.step step).child.stdin = l.adapter.child.stdin ∧
      (l.adapter.step step).child.alive = l.adapter.child.alive)
    (gone : l.running = false → l.adapter.asks step = []) :
    Book flags (asked ++ l.adapter.asks step) (told ++ l.adapter.hearing step) (l.act step) := by
  rw [quiet, List.append_nil]
  cases book with
  | going handled left coming running ready asks input count tells output =>
    apply Book.going handled (left ++ l.adapter.asks step) coming
    · exact running
    · exact ⟨kept.1.trans ready.1, kept.2.trans ready.2⟩
    · rw [asks, List.append_assoc]
    · simp [Link.act, input]
    · exact count
    · exact tells
    · exact output
  | stopped coming off tells output deaf =>
    rw [gone off, List.append_nil]
    exact .stopped coming off tells output fun ended => deaf (kept.2 ▸ ended)

theorem Book.engine (reads : ReadsWritten) (book : Book flags asked told l) :
    Book flags asked told (l.engine flags) := by
  unfold Link.engine
  split
  · next may =>
    split
    · exact book
    · next line rest taken =>
      cases book with
      | stopped coming gone => exact absurd may.1 (by simp [gone])
      | going handled left coming running ready asks input count tells output =>
        have requests : ∀ v ∈ left.map Op.toValue, Told v := by
          intro v member
          obtain ⟨op, _, rfl⟩ := List.mem_map.mp member
          exact told_op op
        obtain ⟨v, more, split, read, later⟩ := (readValue_faithful reads).takeLine
          requests ((List.append_nil _).trans input) taken
        obtain ⟨op, ops, rfl, rfl, rfl⟩ := List.map_eq_cons_iff.mp split
        rw [List.append_nil] at later
        rw [may.2, List.append_nil] at output
        simp only [read]
        apply Book.going (handled ++ [op]) ops (coming ++ (answer flags l.turnCounter op.toValue).1)
        · rw [answer_stays]
          rfl
        · exact ready
        · rw [asks, List.append_assoc]
          rfl
        · exact later
        · rw [after_concat, ← count]
          exact countTurn_op _ op
        · rw [replies, along_concat, ← count, ← List.append_assoc, ← tells]
          rfl
        · rw [List.map_append, Lines.join_append, ← output]
  · exact book

theorem Book.flush (book : Book flags asked told l) (chars : Nat) :
    Book flags asked told (l.step flags (.flush chars)) := by
  cases book with
  | stopped coming gone tells output deaf =>
    rw [step_flush, if_neg (by simp [gone])]
    exact .stopped coming gone tells output deaf
  | going handled left coming running ready asks input count tells output =>
    have same : l.output ++ l.saying.take chars ++ l.saying.drop chars =
        Lines.join (coming.map Json.render) := by
      rw [List.append_assoc, List.take_append_drop, output]
    rw [step_flush, if_pos running]
    exact .going handled left coming running ready asks input count tells same

omit [SerdeJson] in
/-- Whenever the child is killed, what has reached the pipe is the first of what it says. -/
theorem Book.kill (book : Book flags asked told l) (torn : Bool) :
    Book flags asked told (l.kill torn) := by
  have cut : (l.kill torn).output <+: l.output := by
    rw [Link.kill]
    cases torn with
    | false => exact List.prefix_refl _
    | true =>
      rw [if_pos rfl, ← List.reverse_suffix, List.reverse_reverse]
      exact List.dropWhile_suffix _
  cases book with
  | stopped coming gone tells output deaf =>
    apply Book.stopped coming rfl tells (cut.trans output)
    intro ended
    exact List.prefix_nil.mp (deaf ended ▸ cut)
  | going handled left coming running ready asks input count tells output =>
    apply Book.stopped coming rfl
    · rw [← tells, asks, replies_append]
      exact List.prefix_append _ _
    · exact cut.trans (output ▸ List.prefix_append _ _)
    · intro ended
      exact absurd ready.2 (by simp_all [Link.kill])

/-- Nothing is left in the pipe of a child that is gone. -/
theorem Book.drained (reads : ReadsWritten) (book : Book flags asked told l)
    (gone : l.running = false) (step : AdapterStep) (quiet : l.adapter.asks step = [])
    (hears : l.adapter.hearing step = l.adapter.child.values (Lines.pieces l.output)) :
    Book flags (asked ++ l.adapter.asks step) (told ++ l.adapter.hearing step)
      { l.act step with output := [] } := by
  cases book with
  | going handled left coming running => exact absurd gone (by simp [running])
  | stopped coming off tells output deaf =>
    rw [quiet, List.append_nil, hears, LineChild.values]
    split
    · have told' : ∀ v ∈ coming, Told v := by
        intro v member
        exact told_replies 0 asked v (tells.subset (List.mem_append_right told member))
      obtain ⟨more, rfl⟩ := (readValue_faithful reads).pieces_cut told' output
      rw [← List.append_assoc] at tells
      exact .stopped more gone tells List.nil_prefix fun _ => rfl
    · exact .stopped coming gone (by rwa [List.append_nil]) List.nil_prefix fun _ => rfl

/-- The reader thread takes the next of the lines that are coming. -/
theorem Book.took (reads : ReadsWritten) (book : Book flags asked told l) {line rest : List Char}
    (taken : Lines.takeLine l.output = some (line, rest)) :
    Book flags (asked ++ l.adapter.asks (.reads [line] false))
      (told ++ l.adapter.hearing (.reads [line] false))
      { l.act (.reads [line] false) with output := rest } := by
  have asks : l.adapter.asks (.reads [line] false) = [] := rfl
  have hears : l.adapter.hearing (.reads [line] false) = l.adapter.child.values [line] := rfl
  have child : (l.adapter.step (.reads [line] false)).child = _ := LineChild.reads_eq _ _ _
  have known : ∀ {n : Nat} {ops : List Op} {coming : List Json},
      told ++ coming <+: replies flags n ops → ∀ v ∈ coming, Told v := by
    intro n ops coming tells v member
    exact told_replies n ops v (tells.subset (List.mem_append_right told member))
  rw [asks, List.append_nil, hears]
  cases book with
  | going handled left coming running ready asks input count tells output =>
    obtain ⟨v, more, rfl, read, later⟩ :=
      (readValue_faithful reads).takeLine (known ⟨[], by rw [List.append_nil, tells]⟩) output taken
    have heard : l.adapter.child.values [line] = [v] := by simp [LineChild.values, ready.2, read]
    rw [heard]
    apply Book.going handled left more
    · exact running
    · rw [Link.act, child]
      exact ⟨ready.1, by rw [ready.2]; rfl⟩
    · exact asks
    · simp [Link.act, input, ClaudeAdapter.asks]
    · exact count
    · rw [tells, List.append_assoc]
      rfl
    · exact later
  | stopped coming gone tells output deaf =>
    obtain ⟨lost, stops⟩ := output
    obtain ⟨v, more, rfl, read, later⟩ := (readValue_faithful reads).takeLine (known tells) stops taken
    cases alive : l.adapter.child.alive with
    | false =>
      rw [deaf alive] at taken
      cases taken
    | true =>
      have heard : l.adapter.child.values [line] = [v] := by simp [LineChild.values, alive, read]
      rw [heard]
      rw [List.append_cons] at tells
      refine .stopped more gone tells ⟨lost, later⟩ ?_
      rw [Link.act, child, alive]
      exact fun ended => by cases ended

theorem Book.read (reads : ReadsWritten) (book : Book flags asked told l) :
    Book flags (asked ++ l.asks .read) (told ++ l.hearing .read) (l.step flags .read) := by
  cases taken : Lines.takeLine l.output with
  | some next =>
    obtain ⟨line, rest⟩ := next
    have does : l.does .read = some (.reads [line] false) := by simp [Link.does, taken]
    rw [step_read flags taken, Link.hearing, Link.asks, look_of_does does, look_of_does does]
    exact book.took reads taken
  | none =>
    cases running : l.running with
    | true =>
      have does : l.does .read = none := by simp [Link.does, taken, running]
      rw [step_waits flags taken running, Link.hearing, Link.asks, look_of_none does,
        look_of_none does, List.append_nil, List.append_nil]
      exact book
    | false =>
      have does : l.does .read = some (.reads (Lines.pieces l.output) true) := by
        simp [Link.does, taken, running]
      rw [step_ended flags taken running, Link.hearing, Link.asks, look_of_does does,
        look_of_does does]
      exact book.drained reads running (.reads (Lines.pieces l.output) true) rfl rfl

theorem Book.shutdown (reads : ReadsWritten) (book : Book flags asked told l) :
    Book flags (asked ++ l.asks .shutdown) (told ++ l.hearing .shutdown)
      (l.step flags .shutdown) :=
  (book.kill false).drained reads rfl (.shutdown (Lines.pieces l.output)) rfl rfl

theorem Book.step (reads : ReadsWritten) (book : Book flags asked told l) (s : LinkStep) :
    Book flags (asked ++ l.asks s) (told ++ l.hearing s) (l.step flags s) := by
  have idle : ∀ {s : LinkStep}, l.does s = none → Book flags asked told (l.step flags s) →
      Book flags (asked ++ l.asks s) (told ++ l.hearing s) (l.step flags s) := by
    intro s does book
    rw [Link.asks, Link.hearing, look_of_none does, look_of_none does, List.append_nil,
      List.append_nil]
    exact book
  have unsent : l.running = false → l.sending.arrives = false := by
    intro gone
    rw [Link.sending, gone]
    rfl
  cases s with
  | startTurn payload =>
    have child : (l.adapter.step (.startTurn payload l.sending)).child = _ :=
      l.adapter.child.send_eq _ l.sending
    apply book.act (.startTurn payload l.sending) rfl
    · rw [child]
      exact ⟨rfl, rfl⟩
    · intro gone
      simp [ClaudeAdapter.asks, unsent gone]
  | pollEvents => exact book.act .pollEvents rfl ⟨rfl, rfl⟩ fun _ => rfl
  | interrupt =>
    have child : (l.adapter.step (.interrupt l.sending)).child = _ :=
      l.adapter.child.send_eq _ l.sending
    apply book.act (.interrupt l.sending) rfl
    · rw [child]
      exact ⟨rfl, rfl⟩
    · intro gone
      simp [ClaudeAdapter.asks, unsent gone]
  | resumeSession sid => exact book.act (.resumeSession sid) rfl ⟨rfl, rfl⟩ fun _ => rfl
  | shutdown => exact book.shutdown reads
  | engine => exact idle rfl (book.engine reads)
  | flush chars => exact idle rfl (book.flush chars)
  | read => exact book.read reads
  | kill torn => exact idle rfl (book.kill torn)

/-- Runs keep the book. -/
theorem book_kept (reads : ReadsWritten) (flags : EngineFlags) (steps : List LinkStep) :
    Book flags (along (Link.step flags) asks start steps)
      (along (Link.step flags) hearing start steps) (after (Link.step flags) start steps) := by
  induction steps using List.reverseRecOn with
  | nil => exact .going [] [] [] rfl ⟨rfl, rfl⟩ rfl rfl rfl rfl rfl
  | append_singleton past s ih =>
    rw [along_concat, along_concat, after_concat]
    exact ih.step reads s

end Steps

section Reports
variable {flags : EngineFlags} {l : Link}

theorem step_adapter (l : Link) (s : LinkStep) : (l.step flags s).adapter =
    match l.does s with
    | some step => l.adapter.step step
    | none => l.adapter := by
  cases s with
  | startTurn | pollEvents | interrupt | resumeSession | shutdown => rfl
  | engine =>
    have kept : (l.engine flags).adapter = l.adapter := by
      unfold Link.engine
      split
      · split
        · rfl
        · split <;> rfl
      · rfl
    exact kept
  | flush chars =>
    rw [step_flush]
    split <;> rfl
  | read =>
    cases taken : Lines.takeLine l.output with
    | some next => simp [Link.step, does, taken, act]
    | none => cases running : l.running <;> simp [Link.step, does, taken, running, act]
  | kill torn => rfl

/-- The events of what has been heard are polled or wait to be. -/
theorem Link.balanced (flags : EngineFlags) : Balanced (Link.step flags) (fun _ => True)
    (fun l => l.adapter.child.rx) (fun l s => (l.hearing s).filterMap ClaudeAdapter.eventOf)
    polled := by
  intro l s _
  refine ⟨trivial, ?_⟩
  dsimp only
  rw [step_adapter, Link.hearing, Link.polled, look, look]
  cases l.does s with
  | none => exact List.append_nil _
  | some step =>
    dsimp only [Option.map_some, Option.getD_some]
    rw [(l.adapter.step_eq step).1]
    cases step <;> simp [ClaudeAdapter.polled, ClaudeAdapter.hearing, ClaudeAdapter.pollEvents,
      LineChild.poll]

theorem session_heard (flags : EngineFlags) (steps : List LinkStep) :
    (after (Link.step flags) start steps).adapter.child.shared =
      after ClaudeAdapter.sessionAfter none (along (Link.step flags) hearing start steps) := by
  induction steps using List.reverseRecOn with
  | nil => rfl
  | append_singleton past s ih =>
    rw [after_concat, along_concat, after_inputs_append, ← ih, step_adapter, Link.hearing, look]
    cases (after (Link.step flags) start past).does s with
    | none => rfl
    | some step => exact (ClaudeAdapter.step_eq _ step).2.1

/-- The events that the owner has polled are the first of those that the requests call for,
however the two processes took turns and wherever the child was killed. -/
theorem polled_as_called_for (reads : ReadsWritten) (flags : EngineFlags)
    (steps : List LinkStep) :
    along (Link.step flags) polled start steps <+:
      expected flags (along (Link.step flags) asks start steps) := by
  have conserved := (Link.balanced flags).conserved trivial steps (s := start)
  have told : along (Link.step flags) hearing start steps <+:
      replies flags 0 (along (Link.step flags) asks start steps) := by
    cases book_kept reads flags steps with
    | going handled left coming running ready asks input count tells output =>
      rw [asks, replies_append, tells]
      exact ⟨_, (List.append_assoc _ _ _).symm⟩
    | stopped coming gone tells => exact (List.prefix_append _ _).trans tells
  rw [along_filterMap] at conserved
  have heard := told.filterMap ClaudeAdapter.eventOf
  rw [replies_events] at heard
  have taken : along (Link.step flags) polled start steps <+:
      (along (Link.step flags) hearing start steps).filterMap ClaudeAdapter.eventOf :=
    ⟨_, conserved.symm⟩
  exact taken.trans heard

omit [SerdeJson] in
theorem cut_chat_polled : let _ := SerdeJson.ofWritten
    along (Link.step ⟨false, false⟩) polled start
      [.startTurn "go", .engine, .flush 40, .shutdown, .pollEvents] <+:
        [.accepted "t-1", .final "fake: go"] := by
  let _ := SerdeJson.ofWritten
  exact polled_as_called_for readsWritten_ofWritten ⟨false, false⟩
    [.startTurn "go", .engine, .flush 40, .shutdown, .pollEvents]

end Reports

section Progress
variable {flags : EngineFlags} {l : Link} {left : List Op} {coming : List Json}

/-- A step that the owner and the system have no part in. -/
def LinkStep.background : LinkStep → Bool
  | .engine | .flush _ | .read => true
  | _ => false

/-- The pipes of a living child that has written all it said. -/
structure Waiting (left : List Op) (coming : List Json) (l : Link) : Prop where
  running : l.running = true
  input : l.input = Lines.join ((left.map Op.toValue).map Json.render)
  saying : l.saying = []
  output : l.output = Lines.join (coming.map Json.render)

theorem Waiting.read {v : Json} (waiting : Waiting left (v :: coming) l) :
    Waiting left coming (l.step flags .read) := by
  obtain ⟨running, input, saying, output⟩ := waiting
  rw [List.map_cons, Lines.join_cons] at output
  rw [step_read flags (output ▸ Lines.takeLine_join v.newline_not_rendered _)]
  exact ⟨running, by simp [act, input, ClaudeAdapter.asks], saying, rfl⟩

/-- The engine takes a request, and writes what it has to say. -/
theorem Waiting.engine (reads : ReadsWritten) (flags : EngineFlags) {op : Op}
    (waiting : Waiting (op :: left) [] l) :
    ∃ chars, Waiting left (answer flags l.turnCounter op.toValue).1
      ((l.step flags .engine).step flags (.flush chars)) := by
  obtain ⟨running, input, saying, output⟩ := waiting
  rw [List.map_cons, List.map_cons, Lines.join_cons] at input
  have taken := Lines.takeLine_join op.toValue.newline_not_rendered
    (Lines.join ((left.map Op.toValue).map Json.render))
  have read := (readValue_faithful reads).line _ (told_op op)
  have handled : l.step flags .engine = { l with
      input := Lines.join ((left.map Op.toValue).map Json.render)
      turnCounter := countTurn l.turnCounter op.toValue
      saying := Lines.join ((answer flags l.turnCounter op.toValue).1.map Json.render)
      running := true } := by
    have exits : (answer flags l.turnCounter op.toValue).2 = false := answer_stays l.turnCounter op
    change l.engine flags = _
    rw [Link.engine, if_pos ⟨running, saying⟩]
    simp only [input, taken, read, exits]
    rfl
  refine ⟨(Lines.join ((answer flags l.turnCounter op.toValue).1.map Json.render)).length, ?_⟩
  rw [handled, step_flush, if_pos rfl]
  constructor
  · rfl
  · rfl
  · exact List.drop_length
  · simp [output]

theorem Waiting.settles (reads : ReadsWritten) (flags : EngineFlags)
    (waiting : Waiting left coming l) :
    ∃ more, (∀ s ∈ more, LinkStep.background s = true) ∧
      Waiting [] [] (after (Link.step flags) l more) := by
  induction left generalizing l coming with
  | nil =>
    induction coming generalizing l with
    | nil => exact ⟨[], by simp, waiting⟩
    | cons v coming ih =>
      obtain ⟨more, inner, settled⟩ := ih waiting.read
      exact ⟨.read :: more, by simpa [LinkStep.background] using inner, settled⟩
  | cons op left ihLeft =>
    induction coming generalizing l with
    | nil =>
      obtain ⟨chars, next⟩ := waiting.engine reads flags
      obtain ⟨more, inner, settled⟩ := ihLeft next
      exact ⟨.engine :: .flush chars :: more, by simpa [LinkStep.background] using inner, settled⟩
    | cons v coming ih =>
      obtain ⟨more, inner, settled⟩ := ih waiting.read
      exact ⟨.read :: more, by simpa [LinkStep.background] using inner, settled⟩

omit [SerdeJson] in
theorem background_asks {s : LinkStep} (inner : s.background = true) (l : Link) :
    l.asks s = [] := by
  cases s with
  | startTurn | pollEvents | interrupt | resumeSession | shutdown | kill => cases inner
  | engine | flush => rfl
  | read =>
    cases taken : Lines.takeLine l.output with
    | some next => simp [Link.asks, look, does, taken, ClaudeAdapter.asks]
    | none =>
      cases running : l.running <;>
        simp [Link.asks, look, does, taken, running, ClaudeAdapter.asks]

omit [SerdeJson] in
/-- When the pipes of a living child are empty, everything that was asked has been answered. -/
theorem Book.answered {asked : List Op} {told : List Json} (book : Book flags asked told l)
    (waiting : Waiting [] [] l) : told = replies flags 0 asked := by
  have nothing : ∀ {texts : List (List Char)}, Lines.join texts = [] → texts = [] := by
    intro texts empty
    cases texts with
    | nil => rfl
    | cons first more => simp at empty
  cases book with
  | stopped coming gone => exact absurd waiting.running (by simp [gone])
  | going handled left coming running ready asks input count tells output =>
    have unread := List.map_eq_nil_iff.mp (List.map_eq_nil_iff.mp
      (nothing (input.symm.trans waiting.input)))
    rw [waiting.output, waiting.saying] at output
    have unheard := List.map_eq_nil_iff.mp (nothing output.symm)
    rw [asks, unread, List.append_nil, tells, unheard, List.append_nil]

theorem living_settles (reads : ReadsWritten) (flags : EngineFlags) (steps : List LinkStep)
    (lives : (after (Link.step flags) start steps).running = true) :
    ∃ more, (∀ s ∈ more, LinkStep.background s = true) ∧
      Waiting [] [] (after (Link.step flags) start (steps ++ more)) := by
  cases book_kept reads flags steps with
  | stopped coming gone => exact absurd lives (by simp [gone])
  | going handled left coming running ready asks input count tells output =>
    have written : Waiting left coming ((after (Link.step flags) start steps).step flags
        (.flush (after (Link.step flags) start steps).saying.length)) := by
      rw [step_flush, if_pos running, List.take_length, List.drop_length]
      exact ⟨running, input, rfl, output⟩
    obtain ⟨more, inner, settled⟩ := written.settles reads flags
    refine ⟨.flush (after (Link.step flags) start steps).saying.length :: more, ?_, ?_⟩
    · simpa [LinkStep.background] using inner
    · rw [after_inputs_append]
      exact settled

/-- As long as the child lives it can be left to itself until the next poll completes what
the requests call for, and the last session is the one that they end in. -/
theorem answers_arrive (reads : ReadsWritten) (flags : EngineFlags) (steps : List LinkStep)
    (lives : (after (Link.step flags) start steps).running = true) :
    ∃ more, (∀ s ∈ more, LinkStep.background s = true) ∧
      along (Link.step flags) polled start (steps ++ more ++ [.pollEvents]) =
        expected flags (along (Link.step flags) asks start steps) ∧
      (after (Link.step flags) start (steps ++ more)).adapter.engineSessionId =
        after (sessionOf flags) none (along (Link.step flags) asks start steps) := by
  obtain ⟨more, inner, settled⟩ := living_settles reads flags steps lives
  have asked : along (Link.step flags) asks start (steps ++ more) =
      along (Link.step flags) asks start steps := by
    rw [along_append, along_eq_nil fun s member => background_asks (inner s member),
      List.append_nil]
  have told := (book_kept reads flags (steps ++ more)).answered settled
  have conserved := (Link.balanced flags).conserved trivial (steps ++ more) (s := start)
  rw [along_filterMap, told, replies_events, asked] at conserved
  refine ⟨more, inner, ?_, ?_⟩
  · rw [along_concat]
    exact conserved.symm
  · rw [ClaudeAdapter.engineSessionId, session_heard, told, replies_session, asked]

omit [SerdeJson] in
theorem resumed_chat_answered : let _ := SerdeJson.ofWritten
    ∃ more, along (Link.step ⟨false, false⟩) polled start
        ([.resumeSession "s-1", .startTurn "go"] ++ more ++ [.pollEvents]) =
          [.accepted "t-1", .final "fake: go"] ∧
      (after (Link.step ⟨false, false⟩) start ([.resumeSession "s-1", .startTurn "go"] ++
        more)).adapter.engineSessionId = some "s-1" := by
  let _ := SerdeJson.ofWritten
  obtain ⟨more, _, reported, session⟩ := answers_arrive readsWritten_ofWritten ⟨false, false⟩
    [.resumeSession "s-1", .startTurn "go"] rfl
  exact ⟨more, reported, session⟩

end Progress
end Crewd.Engines
