import Crewd.Bus.Conduct

/-! One `cell_await`, between its own sections: which marks and waker entries are
its own, what no other thread can change about them, and what it answers. -/
namespace Crewd.Bus
open Autocommit Concurrent

/-- The ticket as the task read it last. -/
def lastRead (task : Nat) : List Mark → Option AskRow
  | [] => none
  | .firstRead reader ask :: earlier | .reread reader ask :: earlier =>
    if reader = task then some ask else lastRead task earlier
  | _ :: earlier => lastRead task earlier

/-- The answer that belongs to a ticket: the reply as it is stored, or its identifiers where
the statement that read it failed. -/
def Verdict (task : Nat) (w : World) (ticket : AskRow) (answer : Answer) : Prop :=
  match ticket.state with
  | .answered => ∃ reply ∈ w.store.envelopes, ticket.replyMessageId = some reply.messageId ∧
      (answer = .answered reply ∨ answer = .answeredStub (some reply.messageId) ticket.askId ∧
        .fetching task reply.messageId true ∈ w.history)
  | .expired => answer = .expired
  | .pending => answer = .pending

theorem Verdict.mono (verdict : Verdict task w ticket answer) (grows : Grows w w') :
    Verdict task w' ticket answer := by
  unfold Verdict at verdict ⊢
  cases state : ticket.state with
  | answered =>
    rw [state] at verdict
    obtain ⟨reply, stored, same, answers⟩ := verdict
    refine ⟨reply, grows.envelopes reply stored, same, answers.imp_right fun ⟨stub, failed⟩ => ?_⟩
    exact ⟨stub, grows.history.subset failed⟩
  | expired => rw [state] at verdict; exact verdict
  | pending => rw [state] at verdict; exact verdict

/-- An answered ticket names a stored reply. -/
def Backed (ticket : AskRow) (w : World) : Prop :=
  ticket.state = .answered →
    ∃ reply ∈ w.store.envelopes, ticket.replyMessageId = some reply.messageId

theorem Backed.mono (backed : Backed ticket w) (grows : Grows w w') : Backed ticket w' := by
  intro state
  obtain ⟨reply, stored, same⟩ := backed state
  exact ⟨reply, grows.envelopes reply stored, same⟩

theorem Inv.backed [Platform] {w : World} {row : Ask} (inv : Inv w) (member : row ∈ w.store.asks) :
    Backed row.toAskRow w := by
  intro state
  obtain ⟨reply, replied⟩ := inv.replied row member state
  exact ⟨reply, replied.stored, replied.recorded⟩

section Elsewhere

/-- A step of another thread leaves the traces of this task alone. -/
structure Elsewhere (task : Nat) (w w' : World) : Prop where
  lastRead : lastRead task w'.history = lastRead task w.history
  inProgress : ∀ askId, task ∈ inProgress askId w'.history ↔ task ∈ inProgress askId w.history
  asleep : ∀ askId, task ∈ asleep askId w'.history ↔ task ∈ asleep askId w.history
  queued : ∀ askId, Queued task askId w'.memory ↔ Queued task askId w.memory

variable {task : Nat}

theorem Elsewhere.rfl : Elsewhere task w w :=
  ⟨.refl _, fun _ => .rfl, fun _ => .rfl, fun _ => .rfl⟩

theorem Elsewhere.trans (first : Elsewhere task w w') (second : Elsewhere task w' w'') :
    Elsewhere task w w'' :=
  ⟨second.lastRead.trans first.lastRead,
    fun askId => (second.inProgress askId).trans (first.inProgress askId),
    fun askId => (second.asleep askId).trans (first.asleep askId),
    fun askId => (second.queued askId).trans (first.queued askId)⟩

theorem queued_congr {m m' : Memory} (same : m'.askWakers = m.askWakers) :
    Queued task askId m' ↔ Queued task askId m := by
  simp [Queued, Memory.wakerOrNew, Memory.waker, same]

private theorem queued_setWaker {m : Memory} {n : Notify} {other : String}
    (same : task ∈ n.waiting ∨ task ∈ n.notified ↔ Queued task other m) (askId : String) :
    Queued task askId (m.setWaker other n) ↔ Queued task askId m := by
  simp only [Queued, Memory.wakerOrNew_setWaker]
  by_cases here : askId = other
  · subst here
    simp only [if_true]
    exact same
  · simp only [if_neg here]

private theorem mem_erase_other {tasks : List Nat} (other : task ≠ gone) :
    task ∈ tasks.erase gone ↔ task ∈ tasks := List.mem_erase_of_ne other

/-- A mark of the history that is not about this task. -/
private theorem elsewhere_of_mark {mark : Mark} (history : w'.history = mark :: w.history)
    (queued : ∀ askId, Queued task askId w'.memory ↔ Queued task askId w.memory)
    (aside : ∀ earlier, Bus.lastRead task (mark :: earlier) = Bus.lastRead task earlier ∧
      ∀ askId, (task ∈ Bus.inProgress askId (mark :: earlier) ↔
          task ∈ Bus.inProgress askId earlier) ∧
        (task ∈ Bus.asleep askId (mark :: earlier) ↔ task ∈ Bus.asleep askId earlier)) :
    Elsewhere task w w' := by
  refine ⟨?_, fun askId => ?_, fun askId => ?_, queued⟩
  · rw [history]; exact (aside _).1
  · rw [history]; exact ((aside _).2 askId).1
  · rw [history]; exact ((aside _).2 askId).2

/-- Passages of deliveries are not about any task. -/
private theorem elsewhere_passed (moves : List Passage) (memory : w'.memory = w.memory)
    (history : w'.history = moves.map .passed ++ w.history) : Elsewhere task w w' := by
  have running : ∀ askId, Bus.inProgress askId w'.history = Bus.inProgress askId w.history :=
    fun askId => by rw [history]; exact look_passed (fun _ _ => rfl) moves w.history
  have sleeping : ∀ askId, Bus.asleep askId w'.history = Bus.asleep askId w.history :=
    fun askId => by rw [history]; exact look_passed (fun _ _ => rfl) moves w.history
  refine ⟨?_, fun askId => by rw [running], fun askId => by rw [sleeping], fun _ => by rw [memory]⟩
  rw [history]
  exact look_passed (fun _ _ => rfl) moves w.history

variable [Platform]

/-- A step of another actor is made elsewhere, or it is the start after a crash. -/
theorem Statement.elsewhere_or_restarted (step : Statement self w w')
    (other : self ≠ .task task) : Elsewhere task w w' ∨
      self = .restart ∧ w'.memory.askWakers = [] ∧
        w'.history = .restarted :: w.history := by
  cases step with
  | quiet same =>
    exact .inl ⟨by rw [same.history], fun _ => by rw [same.history],
      fun _ => by rw [same.history], fun _ => by rw [same.memory]⟩
  | delivery _ _ _ _ _ _ => exact .inl (elsewhere_passed [_] rfl rfl)
  | moved _ => exact .inl (elsewhere_passed _ rfl (moveRows_history w))
  | noted passage _ => exact .inl (elsewhere_passed [passage] rfl rfl)
  | counters _ _ | envelope _ _ _ | event _ | ask _ _ _ _ _ _ | binding _ _ _ =>
    exact .inl ⟨by rfl, fun _ => .rfl, fun _ => .rfl, fun _ => .rfl⟩
  | memory m _ wakers =>
    exact .inl ⟨by rfl, fun _ => .rfl, fun _ => .rfl, fun _ => queued_congr wakers⟩
  | answered askId reply _ =>
    exact .inl <| elsewhere_of_mark rfl (fun _ => .rfl) fun _ => ⟨rfl, fun _ => ⟨.rfl, .rfl⟩⟩
  | expired askId _ =>
    exact .inl <| elsewhere_of_mark rfl (fun _ => .rfl) fun _ => ⟨rfl, fun _ => ⟨.rfl, .rfl⟩⟩
  | firstRead reader ask mine _ =>
    have apart : reader ≠ task := fun same => other (same ▸ mine)
    exact .inl <| elsewhere_of_mark rfl (fun _ => .rfl) fun _ => ⟨by simp [Bus.lastRead, apart],
      fun _ => ⟨.rfl, .rfl⟩⟩
  | reread reader ask mine _ =>
    have apart : reader ≠ task := fun same => other (same ▸ mine)
    exact .inl <| elsewhere_of_mark rfl (fun _ => .rfl) fun _ => ⟨by simp [Bus.lastRead, apart],
      fun _ => ⟨.rfl, .rfl⟩⟩
  | fetching reader messageId mine =>
    exact .inl <| elsewhere_of_mark rfl (fun _ => .rfl) fun _ => ⟨rfl, fun _ => ⟨.rfl, .rfl⟩⟩
  | resumed sleeper askId mine =>
    have apart : task ≠ sleeper := fun same => other (same ▸ mine)
    refine .inl <| elsewhere_of_mark rfl (fun _ => .rfl) fun _ => ⟨rfl, fun id => ⟨.rfl, ?_⟩⟩
    simp only [Bus.asleep]
    split
    · exact mem_erase_other apart
    · exact .rfl
  | registered waiter askId mine idle =>
    have apart : task ≠ waiter := fun same => other (same ▸ mine)
    refine .inl <| elsewhere_of_mark rfl (queued_setWaker .rfl) fun _ => ⟨rfl, fun id => ⟨?_, .rfl⟩⟩
    simp only [Bus.inProgress]
    split
    · simp [apart]
    · exact .rfl
  | polled waiter askId mine _ _ =>
    have apart : task ≠ waiter := fun same => other (same ▸ mine)
    simp only [pollWaker, Action.exec_step, Notify.poll]
    by_cases permit : (w.memory.wakerOrNew askId).permit = true
    · simp only [permit, if_true]
      refine .inl <| elsewhere_of_mark rfl (queued_setWaker .rfl) fun _ => ⟨rfl, fun id => ⟨?_, .rfl⟩⟩
      simp only [Bus.inProgress]
      split
      · exact mem_erase_other apart
      · exact .rfl
    · simp only [permit, Bool.false_eq_true, if_false]
      exact .inl ⟨by rfl, fun _ => .rfl, fun _ => .rfl, queued_setWaker (by simp [Queued, apart])⟩
  | polledAgain waiter askId mine _ _ =>
    have apart : task ≠ waiter := fun same => other (same ▸ mine)
    simp only [pollWakerAgain, Notify.pollAgain]
    by_cases notified : waiter ∈ (w.memory.wakerOrNew askId).notified
    · simp only [notified, if_true]
      refine .inl <| elsewhere_of_mark rfl (queued_setWaker (by simp [Queued, mem_erase_other apart]))
        fun _ => ⟨rfl, fun id => ⟨?_, .rfl⟩⟩
      simp only [Bus.inProgress]
      split
      · exact mem_erase_other apart
      · exact .rfl
    · simp only [notified, if_false]
      refine .inl <| elsewhere_of_mark rfl (queued_setWaker (by simp [Queued, mem_erase_other apart]))
        fun _ => ⟨rfl, fun id => ⟨?_, ?_⟩⟩
      · simp only [Bus.inProgress]
        split
        · exact mem_erase_other apart
        · exact .rfl
      · simp only [Bus.asleep]
        split
        · simp [apart]
        · exact .rfl
  | notified askId =>
    simp only [notifyAsker, Action.exec_step]
    cases found : w.memory.waker askId with
    | none => exact .inl <| elsewhere_of_mark rfl (fun _ => .rfl) fun _ => ⟨rfl, fun _ => ⟨.rfl, .rfl⟩⟩
    | some n =>
      have here : w.memory.wakerOrNew askId = n := by simp [Memory.wakerOrNew, found]
      refine .inl <| elsewhere_of_mark rfl (queued_setWaker ?_) fun _ => ⟨rfl, fun _ => ⟨.rfl, .rfl⟩⟩
      simp only [Queued, here, Notify.notifyOne]
      cases queue : n.waiting with
      | nil => simp
      | cons oldest later =>
        simp only [List.mem_cons, List.mem_append, List.not_mem_nil, or_false]
        tauto
  | restarted m mine empty => exact .inr ⟨mine, empty, rfl⟩

theorem Statement.elsewhere (step : Statement self w w') (other : self ≠ .task task)
    (running : self ≠ .restart) : Elsewhere task w w' :=
  (step.elsewhere_or_restarted other).resolve_right fun h => running h.1

theorem Steps.elsewhere (steps : Steps self w w') (other : self ≠ .task task)
    (running : self ≠ .restart) : Elsewhere task w w' := by
  induction steps with
  | refl => exact .rfl
  | tail _ last ih => exact ih.trans (last.elsewhere other running)

end Elsewhere

section Phases
variable {task : Nat}

/-- The task does not wait: it left no trace that another thread could act on. -/
structure Idle (task : Nat) (w : World) : Prop where
  inProgress : ∀ askId, task ∉ inProgress askId w.history
  asleep : ∀ askId, task ∉ asleep askId w.history
  queued : ∀ askId, ¬ Queued task askId w.memory

/-- The task has registered its waker and not slept. -/
structure Watching (task : Nat) (askId : String) (w : World) : Prop where
  inProgress : task ∈ inProgress askId w.history
  asleep : ∀ askId, task ∉ asleep askId w.history

/-- The deadline of the task has passed; in an orderly run the ask is not settled yet. -/
structure Dozed (task : Nat) (askId : String) (w : World) : Prop where
  asleep : task ∈ asleep askId w.history
  unsettled : Orderly w.history → ¬ Committed askId w.history

/-- The ticket that the handler holds is what it read last. -/
structure Holding (task : Nat) (ask : AskRow) (w : World) : Prop where
  lastRead : lastRead task w.history = some ask
  known : Known ask w
  backed : Backed ask w

/-- The answer fits to the ticket as it was read last. -/
def Answered (task : Nat) (answer : Answer) (w : World) : Prop :=
  ∃ ticket, lastRead task w.history = some ticket ∧
    (Orderly w.history → Verdict task w ticket answer)

theorem Idle.elsewhere (idle : Idle task w) (away : Elsewhere task w w') : Idle task w' :=
  ⟨fun id => mt (away.inProgress id).mp (idle.inProgress id),
    fun id => mt (away.asleep id).mp (idle.asleep id),
    fun id => mt (away.queued id).mp (idle.queued id)⟩

theorem Watching.elsewhere (watching : Watching task askId w) (away : Elsewhere task w w') :
    Watching task askId w' :=
  ⟨(away.inProgress askId).mpr watching.inProgress,
    fun id => mt (away.asleep id).mp (watching.asleep id)⟩

theorem Holding.elsewhere (holding : Holding task ask w) (away : Elsewhere task w w')
    (grows : Grows w w') : Holding task ask w' :=
  ⟨away.lastRead.trans holding.lastRead, holding.known.mono grows, holding.backed.mono grows⟩

/-- What is held rests on the tables and on what the task read. -/
theorem Holding.kept (holding : Holding task ask w) (store : w'.store = w.store)
    (read : Bus.lastRead task w'.history = Bus.lastRead task w.history) : Holding task ask w' := by
  refine ⟨read.trans holding.lastRead, ?_, fun state => ?_⟩
  · show ∃ row ∈ w'.store.asks, _
    rw [store]; exact holding.known
  · rw [store]; exact holding.backed state

theorem Answered.mono (answered : Answered task answer w)
    (same : lastRead task w'.history = lastRead task w.history) (grows : Grows w w') :
    Answered task answer w' := by
  obtain ⟨ticket, read, verdict⟩ := answered
  exact ⟨ticket, same.trans read, fun orderly =>
    (verdict (orderly.suffix grows.history)).mono grows⟩

variable [Platform]

/-- A task that does not wait is not made to wait, and after a crash nobody waits. -/
theorem Statement.idle (step : Statement self w w') (other : self ≠ .task task)
    (idle : Idle task w) : Idle task w' := by
  rcases step.elsewhere_or_restarted other with away | ⟨_, empty, history⟩
  · exact idle.elsewhere away
  · refine ⟨fun id => ?_, fun id => ?_, fun id => ?_⟩
    · rw [history]; simp [inProgress]
    · rw [history]; simp [asleep]
    · simp [Queued, Memory.wakerOrNew, Memory.waker, empty, Notify.new]

theorem Statement.answered_lasts (step : Statement self w w') (other : self ≠ .task task)
    (answered : Answered task answer w) : Answered task answer w' := by
  rcases step.elsewhere_or_restarted other with away | ⟨_, _, history⟩
  · exact answered.mono away.lastRead step.grows
  · exact answered.mono (by rw [history]; rfl) step.grows

/-- Only the commit itself makes an ask committed. -/
theorem Statement.commits (step : Statement self w w') (now : Committed askId w'.history) :
    Committed askId w.history ∨ ∃ reply, w'.history = .committed askId reply :: w.history := by
  have grown : ∀ mark, (∀ reply, mark ≠ .committed askId reply) →
      Committed askId (mark :: w.history) → Committed askId w.history := by
    rintro mark apart ⟨reply, member⟩
    rcases List.mem_cons.mp member with this | earlier
    · exact absurd this.symm (apart reply)
    · exact ⟨reply, earlier⟩
  cases step with
  | quiet same => exact .inl (same.history ▸ now)
  | counters _ _ | envelope _ _ _ | event _ | ask _ _ _ _ _ _ | binding _ _ _ | memory _ _ _ =>
    exact .inl now
  | answered id reply _ | expired id _ =>
    by_cases same : id = askId
    · subst same; exact .inr ⟨_, rfl⟩
    · exact .inl (grown _ (fun _ h => same (by cases h; rfl)) now)
  | moved _ =>
    rw [moveRows_history] at now
    obtain ⟨reply, member⟩ := now
    rcases List.mem_append.mp member with here | earlier
    · obtain ⟨passage, _, same⟩ := List.mem_map.mp here
      cases same
    · exact .inl ⟨reply, earlier⟩
  | restarted _ _ _ =>
    obtain ⟨reply, member⟩ := now
    simp only [List.mem_cons, reduceCtorEq, false_or] at member
    exact .inl ⟨reply, member⟩
  | delivery _ _ _ _ _ _ | noted _ _ | firstRead _ _ _ _ | registered _ _ _ _ | resumed _ _ _
  | reread _ _ _ _ | fetching _ _ _ =>
    exact .inl (grown _ (fun _ h => by cases h) now)
  | polled waiter id _ _ _ =>
    simp only [pollWaker, Action.exec_step] at now
    split at now
    · exact .inl (grown _ (fun _ h => by cases h) now)
    · exact .inl now
  | polledAgain waiter id _ _ _ =>
    simp only [pollWakerAgain] at now
    split at now <;> exact .inl (grown _ (fun _ h => by cases h) now)
  | notified id =>
    simp only [notifyAsker, Action.exec_step] at now
    split at now <;> exact .inl (grown _ (fun _ h => by cases h) now)

theorem Dozed.step (dozed : Dozed task askId w) (step : Statement self w w')
    (other : self ≠ .task task) (running : self ≠ .restart) : Dozed task askId w' := by
  refine ⟨((step.elsewhere other running).asleep askId).mpr dozed.asleep, fun orderly now => ?_⟩
  have before : Orderly w.history := orderly.suffix step.grows.history
  rcases step.commits now with already | ⟨reply, history⟩
  · exact dozed.unsettled before already
  · rw [history] at orderly
    have nobody : Bus.asleep askId w.history = [] := orderly.2
    have sleeping := dozed.asleep
    rw [nobody] at sleeping
    cases sleeping

/-- Assertions about the task's own traces survive the other threads. -/
theorem stable_of_elsewhere {P : World → Prop}
    (keeps : ∀ w w', Elsewhere task w w' → Grows w w' → P w → P w') :
    Stable (others Steps (.task task)) P :=
  fun _ _ ⟨_, other, running, steps⟩ holds =>
    keeps _ _ (steps.elsewhere other running) steps.grows holds

theorem stable_dozed : Stable (others Steps (.task task)) (Dozed task askId) := by
  rintro w w' ⟨actor, other, running, steps⟩ dozed
  induction steps with
  | refl => exact dozed
  | tail _ last ih => exact ih.step last other running

theorem stable_answered : Stable (others Steps (.task task)) (Answered task answer) :=
  stable_of_elsewhere fun _ _ away grows answered => answered.mono away.lastRead grows

end Phases

section Await
variable [Platform] {task : Nat}

theorem firstRead_follows (askId : String) :
    Follows (.task task) (Idle task) (locked (firstRead task askId))
      (fun ask w => Idle task w ∧ Holding task ask w) := by
  refine Runs.locked Statement.ofQuiet (fun ask => stable_of_elsewhere fun _ _ away grows h =>
    ⟨h.1.elsewhere away, h.2.elsewhere away grows⟩) fun w good idle => ?_
  have backed : ∀ row ∈ w.store.asks, Backed row.toAskRow w := fun row => good.1.backed
  refine (meets_query Statement.ofQuiet _).bind fun row => meets_from fun _ ⟨here, found⟩ =>
    ⟨_, here, ?_⟩
  cases row with
  | none => exact Meets.throw
  | some ask =>
    obtain ⟨row, stored, rfl⟩ := Option.map_eq_some_iff.mp found.symm
    obtain ⟨member, _⟩ := ask_of_find stored
    refine Meets.bind (Meets.step (fun s here => .firstRead task row rfl (by
      rw [here.store]; exact member)) fun s here => ?_) fun _ => Meets.pure fun _ h => h
    refine ⟨⟨fun id => ?_, fun id => ?_, fun id => ?_⟩, ?_, ⟨row, ?_, rfl, rfl, rfl, rfl⟩, ?_⟩
    · show task ∉ inProgress id s.history
      rw [here.history]; exact idle.inProgress id
    · show task ∉ asleep id s.history
      rw [here.history]; exact idle.asleep id
    · show ¬ Queued task id s.memory
      rw [here.memory]; exact idle.queued id
    · simp [lastRead]
    · show row ∈ s.store.asks
      rw [here.store]; exact member
    · intro state
      show ∃ reply ∈ s.store.envelopes, _
      rw [here.store]; exact backed row member state

/-- A reply was read, from the tables of the snapshot unless it is noted that it failed. -/
def Fetched (task : Nat) (messageId : String) (now : Snap) (r : Except BusError (Option Envelope))
    (w : World) : Prop :=
  ∃ failing, w.At { now with history := .fetching task messageId failing :: now.history } ∧
    (∀ found, r = .ok found → found = now.store.envelope messageId) ∧
    (failing = false → ∃ found, r = .ok found)

omit [Platform] in
theorem Fetched.found {row : Option Envelope} (fetched : Fetched task messageId now r w)
    (ok : r = .ok row) : row = now.store.envelope messageId := by
  obtain ⟨_, _, read, _⟩ := fetched
  exact read row ok

theorem fetch_meets (messageId : String) {now : Snap} :
    Meets (Statement (.task task)) (·.At now)
      (do noteFetch task messageId; (getEnvelope messageId).outcome)
      (Fetched task messageId now) := by
  intro w here
  let noted : World := { w with history := .fetching task messageId w.failsNext :: w.history }
  have same : noted.At { now with history := .fetching task messageId w.failsNext :: now.history } :=
    ⟨here.store, here.audit, here.memory, congrArg _ here.history, here.minted⟩
  have step : Statement (.task task) w noted := .fetching task messageId rfl
  have quiet : ∀ w w' : World, w.Quiet w' → Statement (.task task) w w' := Statement.ofQuiet
  obtain ⟨path, answers⟩ := meets_query_outcome quiet (·.envelope messageId) noted same
  refine ⟨.head step path, fun r answer => ⟨w.failsNext, ?_⟩⟩
  obtain ⟨there, found⟩ := answers r answer
  refine ⟨there, found, fun clear => ?_⟩
  have read := query_outcome_clear (fun st : Store => st.envelope messageId) (w := noted) clear
  exact ⟨_, Except.ok.inj (answer.symm.trans read)⟩

theorem answered_follows {ticket : AskRow} (state : ticket.state = .answered) :
    Follows (.task task) (fun w => lastRead task w.history = some ticket ∧ Backed ticket w)
      (answered task ticket) (Answered task) := by
  unfold answered
  cases named : ticket.replyMessageId with
  | none =>
    refine Runs.pure fun w _ ⟨_, backed⟩ => ?_
    obtain ⟨reply, _, same⟩ := backed state
    cases named.symm.trans same
  | some messageId =>
    refine Runs.locked Statement.ofQuiet (fun _ => stable_answered) fun w good ⟨read, backed⟩ => ?_
    obtain ⟨reply, stored, same⟩ := backed state
    obtain rfl : messageId = reply.messageId := Option.some.inj (named.symm.trans same)
    have known : w.store.envelope reply.messageId = some reply :=
      envelope_of_mem good.1.envelopesOnce stored
    rw [← bind_assoc]
    refine (fetch_meets reply.messageId).bind fun r => ?_
    have fits : ∀ answer, ∀ w' : World, Fetched task reply.messageId w.snapshot r w' →
        (answer = .answered reply ∨
          answer = .answeredStub (some reply.messageId) ticket.askId ∧ ¬ ∃ found, r = .ok found) →
        Answered task answer w' := by
      intro answer w' ⟨failing, here, _, clear⟩ answers
      refine ⟨ticket, by rw [here.history]; exact read, fun _ => ?_⟩
      rw [Verdict, state]
      refine ⟨reply, by rw [here.store]; exact stored, named, answers.imp_right fun ⟨stub, failed⟩ => ?_⟩
      have fails : failing = true := Bool.eq_true_of_not_eq_false (mt clear failed)
      exact ⟨stub, by rw [here.history, fails]; exact List.mem_cons_self⟩
    rcases r with e | _ | env
    · exact Meets.pure fun w' fetched => fits _ w' fetched (.inr ⟨rfl, fun ⟨_, ok⟩ => by cases ok⟩)
    · refine Meets.pure fun w' fetched => ?_
      cases (fetched.found rfl).trans known
    · refine Meets.pure fun w' fetched => fits _ w' fetched (.inl ?_)
      cases (fetched.found rfl).trans known
      rfl

theorem activateAwait_follows (waiter target : String) :
    Follows (.task task) (fun w => Idle task w ∧ Holding task ask w)
      (locked (activateAwait waiter target)) (fun _ w => Idle task w ∧ Holding task ask w) := by
  refine Runs.locked Statement.ofQuiet (fun _ => stable_of_elsewhere fun _ _ away grows h =>
    ⟨h.1.elsewhere away, h.2.elsewhere away grows⟩) fun w _ ⟨idle, holding⟩ => ?_
  refine Meets.step (fun s _ => .memory _ rfl rfl) fun s here => ?_
  refine ⟨⟨fun id => ?_, fun id => ?_, fun id => ?_⟩, holding.kept here.store ?_⟩
  · show task ∉ inProgress id s.history
    rw [here.history]; exact idle.inProgress id
  · show task ∉ asleep id s.history
    rw [here.history]; exact idle.asleep id
  · show ¬ Queued task id s.memory
    rw [here.memory]; exact idle.queued id
  · show lastRead task s.history = _
    rw [here.history]; rfl

/-- What a registered await relies on until its first poll. -/
structure Registered (task : Nat) (ask : AskRow) (w : World) : Prop where
  watching : Watching task ask.askId w
  unqueued : ¬ Queued task ask.askId w.memory
  holding : Holding task ask w

/-- What an await relies on while it waits for its waker or deadline. -/
structure Parked (task : Nat) (ask : AskRow) (w : World) : Prop where
  watching : Watching task ask.askId w
  queued : Queued task ask.askId w.memory
  holding : Holding task ask w

theorem registerWaker_follows :
    Follows (.task task) (fun w => Idle task w ∧ Holding task ask w)
      (locked (registerWaker task ask.askId)) (fun _ => Registered task ask) := by
  refine Runs.locked Statement.ofQuiet (fun _ => stable_of_elsewhere fun _ _ away grows h =>
    ⟨h.watching.elsewhere away, mt (away.queued _).mp h.unqueued, h.holding.elsewhere away grows⟩)
    fun w _ ⟨idle, holding⟩ => ?_
  refine Meets.step (fun s here => .registered task ask.askId rfl ?_) fun s here => ?_
  · rw [here.history]; exact idle.inProgress _
  · refine ⟨⟨?_, fun id => ?_⟩, ?_, holding.kept here.store ?_⟩
    · simp [inProgress]
    · show task ∉ asleep id s.history
      rw [here.history]; exact idle.asleep id
    · show ¬ Queued task ask.askId (s.memory.setWaker ask.askId _)
      simp only [Queued, Memory.wakerOrNew_setWaker, if_true]
      rw [here.memory]; exact idle.queued _
    · show lastRead task s.history = _
      rw [here.history]; rfl

/-- After the wait: the ticket is still held, and a missed notification is on record. -/
def Waited (task : Nat) (ask : AskRow) (woken : Bool) (w : World) : Prop :=
  Holding task ask w ∧ (woken = false → Dozed task ask.askId w)

omit [Platform] in
theorem holding_of_poll (held : Holding task ask w) (store : w'.store = w.store)
    (history : w'.history = w.history ∨
      ∃ mark, w'.history = mark :: w.history ∧ lastRead task (mark :: w.history) =
        lastRead task w.history) : Holding task ask w' := by
  refine held.kept store ?_
  rcases history with same | ⟨mark, same, aside⟩
  · rw [same]
  · rw [same, aside]

theorem stable_holding : Stable (others Steps (.task task)) (Holding task ask) :=
  stable_of_elsewhere fun _ _ away grows h => h.elsewhere away grows

theorem stable_waited : Stable (others Steps (.task task)) (Waited task ask woken) :=
  fun w w' moved ⟨holding, dozed⟩ => ⟨stable_holding w w' moved holding,
    fun missed => stable_dozed w w' moved (dozed missed)⟩

theorem pollWaker_follows :
    Follows (.task task) (Registered task ask) (locked (pollWaker task ask.askId))
      (fun woken w => if woken then Waited task ask true w else Parked task ask w) := by
  refine Runs.locked Statement.ofQuiet (fun woken => ?_) fun w _ registered => ?_
  · cases woken with
    | true => exact stable_waited
    | false => exact stable_of_elsewhere fun _ _ away grows h => ⟨h.watching.elsewhere away,
        (away.queued _).mpr h.queued, h.holding.elsewhere away grows⟩
  · obtain ⟨⟨progress, awake⟩, unqueued, holding⟩ := registered
    refine Meets.step (fun s here => .polled task ask.askId rfl ?_ ?_) fun s here => ?_
    · rw [here.history]; exact progress
    · rw [here.memory]
      exact ⟨fun h => unqueued (.inl h), fun h => unqueued (.inr h)⟩
    · have holding : Holding task ask s :=
        holding_of_poll holding here.store (.inl here.history)
      simp only [Notify.poll]
      by_cases permit : (s.memory.wakerOrNew ask.askId).permit = true
      · simp only [permit, if_true]
        exact ⟨holding_of_poll holding rfl (.inr ⟨_, rfl, rfl⟩), fun h => by cases h⟩
      · simp only [permit, Bool.false_eq_true, if_false]
        refine ⟨⟨?_, fun id => ?_⟩, ?_, holding_of_poll holding rfl (.inl rfl)⟩
        · show task ∈ inProgress ask.askId s.history
          rw [here.history]; exact progress
        · show task ∉ asleep id s.history
          rw [here.history]; exact awake id
        · show Queued task ask.askId (s.memory.setWaker ask.askId _)
          simp [Queued, Memory.wakerOrNew_setWaker]

theorem wakeOrDeadline_follows :
    Follows (.task task) (Parked task ask) (wakeOrDeadline task ask.askId)
      (Waited task ask) := by
  refine Safe.bind (Q := fun woken => Waited task ask woken) ?_ fun woken => Safe.pure fun _ _ h => h
  have polls : ∀ (w : World) i, Parked task ask w → Statement (.task task) (w.install i)
      (pollWakerAgain task ask.askId (w.install i)).2 := fun w i parked =>
    .polledAgain task ask.askId rfl parked.watching.inProgress parked.queued
  refine Safe.waiting (fun _ => stable_waited) (fun i w _ parked _ => ?_) fun i w good parked _ => ?_
  · exact .head (.quiet (w.quiet_install i)) (.single (polls w i parked))
  · have installed : Statement (.task task) w (w.install i) := .quiet (w.quiet_install i)
    have waking := (polls w i parked).waking (installed.waking good.2)
    revert waking
    simp only [pollWakerAgain, Notify.pollAgain]
    by_cases notified : task ∈ ((w.install i).memory.wakerOrNew ask.askId).notified
    · simp only [notified, if_true]
      exact fun _ => ⟨holding_of_poll parked.holding rfl (.inr ⟨_, rfl, rfl⟩), fun h => by cases h⟩
    · simp only [notified, if_false]
      refine fun waking => ⟨holding_of_poll parked.holding rfl (.inr ⟨_, rfl, rfl⟩), fun _ => ?_⟩
      refine ⟨by simp [asleep], fun orderly committed => ?_⟩
      obtain ⟨reply, member⟩ := committed
      exact (waking.punctual orderly).2 task ask.askId rfl ⟨reply, by simpa using member⟩

theorem awaitNotified_follows :
    Follows (.task task) (Registered task ask) (awaitNotified task ask.askId)
      (Waited task ask) := by
  refine Runs.bind pollWaker_follows fun woken => ?_
  cases woken with
  | true => exact Runs.pure fun _ _ h => h
  | false => exact wakeOrDeadline_follows

/-- The ticket that decides the answer; after a missed notification it is pending
in every orderly run. -/
structure Decided (task : Nat) (woken : Bool) (ticket : AskRow) (w : World) : Prop where
  lastRead : lastRead task w.history = some ticket
  backed : Backed ticket w
  missed : woken = false → Orderly w.history → ticket.state = .pending

omit [Platform] in
/-- The row of a known ticket is found again. -/
theorem Known.found (known : Known ask w) :
    ∃ row, w.store.ask ask.askId = some row ∧ row ∈ w.store.asks ∧ row.askId = ask.askId := by
  obtain ⟨row, member, same, _⟩ := known
  cases found : w.store.ask ask.askId with
  | none => exact absurd (List.find?_eq_none.mp found row member) (by simpa using same)
  | some row' =>
    obtain ⟨member', same'⟩ := ask_of_find found
    exact ⟨row', rfl, member', same'⟩

theorem readAgain_follows (woken : Bool) :
    Follows (.task task) (Waited task ask woken) (locked (readAgain task ask))
      (Decided task woken) := by
  refine Runs.locked Statement.ofQuiet (fun ticket => stable_of_elsewhere
    fun _ _ away grows h => ⟨away.lastRead.trans h.lastRead, h.backed.mono grows,
      fun missed orderly => h.missed missed (orderly.suffix grows.history)⟩) fun w good waited => ?_
  let resumed : Snap := { w.snapshot with history := .resumed task ask.askId :: w.history }
  refine Meets.bind (Q := fun _ w' => w'.At resumed) ?_ fun _ => ?_
  · refine Meets.step (fun s here => .resumed task ask.askId rfl) fun s here => ?_
    exact ⟨here.store, here.audit, here.memory, by rw [here.history]; rfl, here.minted⟩
  refine (meets_query Statement.ofQuiet _).bind fun row => meets_from fun _ ⟨here, found⟩ =>
    ⟨_, here, ?_⟩
  obtain ⟨⟨_, known, _⟩, dozed⟩ := waited
  obtain ⟨ticket, stored, member, same⟩ := known.found
  have read : row = some ticket.toAskRow := by
    rw [found]
    show (w.store.ask ask.askId).map _ = _
    rw [stored]; rfl
  subst read
  refine Meets.bind (Q := fun _ w' => w'.store = w.store ∧
    w'.history = .reread task ticket.toAskRow :: resumed.history) ?_ fun _ =>
      Meets.pure fun w' ⟨rows, now⟩ => ?_
  · refine Meets.step (fun s here => .reread task ticket rfl ?_) fun s here => ⟨here.store, ?_⟩
    · rw [here.store]; exact member
    · rw [here.history]; rfl
  · refine ⟨by rw [now]; simp [lastRead], fun state => ?_, fun missed orderly => ?_⟩
    · rw [rows]
      exact good.1.backed member state
    rw [now] at orderly
    by_contra settled
    obtain ⟨reply, mark⟩ := (good.1.settled ticket member).mp settled
    exact (dozed missed).unsettled orderly.earlier.earlier ⟨reply, same ▸ mark⟩

theorem waitForReply_follows :
    Follows (.task task) (fun w => Idle task w ∧ Holding task ask w) (waitForReply task ask)
      (Answered task) := by
  refine Runs.bind registerWaker_follows fun _ => Runs.bind awaitNotified_follows fun woken => ?_
  refine Runs.bind (readAgain_follows woken) fun ticket => ?_
  cases woken with
  | false =>
    refine Runs.pure fun w _ decided => ⟨ticket, decided.lastRead, fun orderly => ?_⟩
    simp [Verdict, decided.missed rfl orderly]
  | true =>
    simp only [if_true]
    cases state : ticket.state with
    | answered =>
      exact (answered_follows state).weaken fun w _ decided => ⟨decided.lastRead, decided.backed⟩
    | expired =>
      exact Runs.pure fun w _ decided =>
        ⟨ticket, decided.lastRead, fun _ => by simp [Verdict, state]⟩
    | pending =>
      exact Runs.pure fun w _ decided =>
        ⟨ticket, decided.lastRead, fun _ => by simp [Verdict, state]⟩

/-- Releasing the edge of the wait changes nothing the answer rests on. -/
theorem guarded_follows {guard : AwaitGuard} {body : Handler Answer} {P : World → Prop}
    (runs : Follows (.task task) P body (Answered task)) :
    Follows (.task task) P (guarded guard body) (Answered task) := by
  refine Safe.bind runs fun r => ?_
  refine Safe.bind (Q := fun _ => onOk (Answered task) r) ?_ fun _ => Safe.pure fun _ _ h => h
  have stable : Stable (others Steps (.task task)) (onOk (Answered task) r) := by
    cases r with
    | ok a => exact stable_answered
    | error e => exact fun _ _ _ h => h
  refine Safe.critical (fun _ => stable) (fun i w _ _ => ?_) fun i w _ holds => ?_
  · exact .head (.quiet (w.quiet_install i)) (.single (.memory _ rfl rfl))
  · cases r with
    | ok a =>
      obtain ⟨ticket, read, verdict⟩ := holds
      exact ⟨ticket, read, verdict⟩
    | error e => trivial

/-- An await answers by the ticket it read last. -/
theorem handleAwait_follows (caller : String) (params : Params AwaitParams) :
    Follows (.task task) (Idle task) (handleAwait task caller params) (Answered task) := by
  refine Runs.bind (Runs.raise fun _ _ _ _ idle => idle) fun _ => ?_
  refine Runs.bind (Runs.raise fun _ _ _ _ idle => idle) fun p => ?_
  refine Runs.bind (firstRead_follows p.askId) fun ask => ?_
  split
  · exact Runs.throw
  · cases state : ask.state with
    | answered =>
      exact (answered_follows state).weaken fun w _ ⟨_, holding⟩ =>
        ⟨holding.lastRead, holding.backed⟩
    | expired =>
      exact Runs.pure fun w _ ⟨_, holding⟩ =>
        ⟨ask, holding.lastRead, fun _ => by simp [Verdict, state]⟩
    | pending =>
      refine Runs.bind (activateAwait_follows caller ask.toCell) fun r => ?_
      cases r with
      | error e => exact refuse_follows
      | ok guard => exact guarded_follows waitForReply_follows

end Await
end Crewd.Bus
