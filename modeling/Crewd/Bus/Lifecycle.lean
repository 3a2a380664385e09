import Crewd.Bus.Soundness

/-! The life of a ticket over whole runs, and the audit trail that every delivery
and every answered ask has before anybody can consume it. -/
namespace Crewd.Bus
open Autocommit Concurrent

section Settlement

/-- What became of an ask, settlement by settlement: a reply, or expiry. -/
def settlements (askId : String) (history : List Mark) : List (Option String) :=
  history.filterMap fun
    | .committed id reply => if id = askId then some reply else none
    | _ => none

theorem mem_settlements : reply ∈ settlements askId history ↔ .committed askId reply ∈ history := by
  simp only [settlements, List.mem_filterMap]
  constructor
  · rintro ⟨mark, member, same⟩
    cases mark with
    | committed id r =>
      by_cases here : id = askId
      · simp only [here, if_true, Option.some.injEq] at same
        subst same; exact here ▸ member
      · simp [here] at same
    | _ => simp at same
  · exact fun member => ⟨_, member, by simp⟩

/-- The identity of a ticket stays, and a settled one stays as it is. -/
structure Evolves (ask ask' : Ask) : Prop where
  askId : ask'.askId = ask.askId
  messageId : ask'.messageId = ask.messageId
  fromCell : ask'.fromCell = ask.fromCell
  toCell : ask'.toCell = ask.toCell
  expiresAt : ask'.expiresAt = ask.expiresAt
  settled : ask.state ≠ .pending → ask' = ask

theorem Evolves.refl (ask : Ask) : Evolves ask ask := ⟨rfl, rfl, rfl, rfl, rfl, fun _ => rfl⟩

theorem Evolves.trans (first : Evolves ask ask') (second : Evolves ask' ask'') :
    Evolves ask ask'' where
  askId := second.askId.trans first.askId
  messageId := second.messageId.trans first.messageId
  fromCell := second.fromCell.trans first.fromCell
  toCell := second.toCell.trans first.toCell
  expiresAt := second.expiresAt.trans first.expiresAt
  settled state := by
    have same := first.settled state
    rw [second.settled (same ▸ state), same]

/-- One pending ask is settled, with the reply when there is one. -/
structure Settles (w w' : World) (ask : Ask) (f : Ask → Ask) (reply : Option String) : Prop where
  stored : ask ∈ w.store.asks
  pending : ask.state = .pending
  store : w'.store = w.store.updateAsk ask.askId f
  history : w'.history = .committed ask.askId reply :: w.history
  evolves : Evolves ask (f ask)
  carries : ∀ m, reply = some m → (f ask).state = .answered ∧ (f ask).replyMessageId = some m

variable [Platform]

/-- Everything a step can do to the asks: it keeps them all and settles none, or
it settles one pending ask. -/
theorem Statement.settles (step : Statement self w w') :
    ((∀ ask ∈ w.store.asks, ask ∈ w'.store.asks) ∧
      ∀ askId, settlements askId w'.history = settlements askId w.history) ∨
    ∃ ask f reply, Settles w w' ask f reply := by
  have aside : ∀ {mark}, (∀ askId reply, mark ≠ Mark.committed askId reply) →
      ∀ askId, settlements askId (mark :: w.history) = settlements askId w.history := by
    intro mark apart askId
    cases mark with
    | committed id reply => exact absurd rfl (apart id reply)
    | _ => rfl
  cases step with
  | quiet same => exact .inl ⟨by rw [same.store]; exact fun _ h => h, by rw [same.history]; simp⟩
  | counters _ _ | envelope _ _ _ | event _ | binding _ _ _ | memory _ _ _ =>
    exact .inl ⟨fun _ h => h, fun _ => rfl⟩
  | moved _ =>
    refine .inl ⟨fun _ h => h, fun askId => ?_⟩
    rw [moveRows_history]
    exact look_passed (fun _ _ => rfl) _ _
  | ask row _ _ _ _ _ _ => exact .inl ⟨fun _ h => List.mem_append_left _ h, fun _ => rfl⟩
  | answered askId reply answers =>
    obtain ⟨ask, member, rfl, pending, _⟩ := answers.ticket
    refine .inr ⟨ask, _, _, member, pending, rfl, rfl, ?_, fun m same => ⟨rfl, same⟩⟩
    exact ⟨rfl, rfl, rfl, rfl, rfl, fun settled => absurd pending settled⟩
  | expired askId open_ =>
    obtain ⟨ask, member, rfl, pending⟩ := open_
    refine .inr ⟨ask, _, _, member, pending, rfl, rfl, ?_, fun m same => by cases same⟩
    exact ⟨rfl, rfl, rfl, rfl, rfl, fun settled => absurd pending settled⟩
  | delivery _ _ _ _ _ _ | noted _ _ | firstRead _ _ _ _ | registered _ _ _ _ | resumed _ _ _
  | reread _ _ _ _ | fetching _ _ _ => exact .inl ⟨fun _ h => h, aside (by simp)⟩
  | restarted _ _ _ => exact .inl ⟨fun _ h => h, fun _ => rfl⟩
  | polled task askId _ _ _ =>
    left
    simp only [pollWaker, Action.exec_step]
    split
    · exact ⟨fun _ h => h, aside (by simp)⟩
    · exact ⟨fun _ h => h, fun _ => rfl⟩
  | polledAgain task askId _ _ _ =>
    left
    simp only [pollWakerAgain]
    split <;> exact ⟨fun _ h => h, aside (by simp)⟩
  | notified askId =>
    left
    simp only [notifyAsker, Action.exec_step]
    split <;> exact ⟨fun _ h => h, aside (by simp)⟩

theorem Statement.evolves {ask : Ask} (step : Statement self w w') (good : Good w)
    (member : ask ∈ w.store.asks) : ∃ ask' ∈ w'.store.asks, Evolves ask ask' := by
  rcases step.settles with ⟨kept, _⟩ | ⟨row, f, reply, settled⟩
  · exact ⟨ask, kept ask member, .refl ask⟩
  · rw [settled.store]
    by_cases same : ask.askId = row.askId
    · have here := good.inv.ask_unique member settled.stored same
      subst here
      exact ⟨f ask, Inv.mem_updateAsk.mpr (.inr ⟨ask, member, rfl, rfl⟩), settled.evolves⟩
    · exact ⟨ask, Inv.mem_updateAsk.mpr (.inl ⟨member, same⟩), .refl ask⟩

/-- An ask is settled at most once. -/
theorem Statement.settles_once (step : Statement self w w') (good : Good w)
    (once : (settlements askId w.history).length ≤ 1) :
    (settlements askId w'.history).length ≤ 1 := by
  rcases step.settles with ⟨_, same⟩ | ⟨row, f, reply, settled⟩
  · rw [same]; exact once
  · rw [settled.history]
    by_cases here : row.askId = askId
    · subst here
      have none : settlements row.askId w.history = [] := by
        refine List.eq_nil_iff_forall_not_mem.mpr fun earlier member => ?_
        exact (good.inv.settled row settled.stored).mpr ⟨earlier, mem_settlements.mp member⟩
          settled.pending
      show (settlements row.askId ([.committed row.askId reply] ++ w.history)).length ≤ 1
      rw [settlements, List.filterMap_append]
      rw [settlements] at none
      rw [none]; simp
    · have same : settlements askId (.committed row.askId reply :: w.history) =
          settlements askId w.history := by simp [settlements, here]
      rw [same]; exact once

/-- The committed replies are those that the asks carry. -/
def Recorded (w : World) : Prop :=
  ∀ askId m, Mark.committed askId (some m) ∈ w.history →
    ∃ ask ∈ w.store.asks, ask.askId = askId ∧ ask.state = .answered ∧ ask.replyMessageId = some m

theorem Statement.records (step : Statement self w w') (good : Good w) (recorded : Recorded w) :
    Recorded w' := by
  intro askId m mark
  rcases step.settles with ⟨kept, same⟩ | ⟨row, f, reply, settled⟩
  · rw [← mem_settlements, same, mem_settlements] at mark
    obtain ⟨ask, member, rest⟩ := recorded askId m mark
    exact ⟨ask, kept ask member, rest⟩
  · rw [settled.history] at mark
    rw [settled.store]
    rcases List.mem_cons.mp mark with now | earlier
    · cases now
      exact ⟨f row, Inv.mem_updateAsk.mpr (.inr ⟨row, settled.stored, rfl, rfl⟩),
        settled.evolves.askId, settled.carries m rfl⟩
    · obtain ⟨ask, member, rfl, answered, carried⟩ := recorded askId m earlier
      refine ⟨ask, Inv.mem_updateAsk.mpr (.inl ⟨member, fun same => ?_⟩), rfl, answered, carried⟩
      have here := good.inv.ask_unique member settled.stored same
      rw [here, settled.pending] at answered
      cases answered

end Settlement

variable [Platform]

/-- The life of a ticket: its row stays, a settled one unchanged; it is settled at
most once; and the one committed reply was sent by the cell that was asked. -/
theorem ticket_life_cycle (blank : Blank w) (path : service.Reaches w c)
    (later : service.Leads c d) :
    (d.shared.store.asks.map (·.askId)).Nodup ∧
    (∀ ask ∈ c.shared.store.asks, ∃ ask' ∈ d.shared.store.asks, Evolves ask ask') ∧
    (∀ askId, (settlements askId d.shared.history).length ≤ 1) ∧
    (∀ ask ∈ d.shared.store.asks, ask.state ≠ .pending ↔
      ∃ reply, .committed ask.askId reply ∈ d.shared.history) ∧
    ∀ askId m, .committed askId (some m) ∈ d.shared.history →
      ∃ ask ∈ d.shared.store.asks, ask.askId = askId ∧ ask.state = .answered ∧
        ask.replyMessageId = some m ∧ ∃ reply ∈ d.shared.store.envelopes,
          reply.messageId = m ∧ reply.kind = .reply ∧ reply.askId = some askId ∧
          reply.fromCell = ask.toCell ∧
          ask.replyBodySha256 = some (Platform.sha256 reply.body) := by
  have reached : service.Reaches w d := .trans _ path later
  have good := good_reachable blank reached
  refine ⟨good.inv.asksOnce, fun ask member => ?_, fun askId => ?_, good.inv.settled, ?_⟩
  · refine lasting (P := fun v => ∃ ask' ∈ v.store.asks, Evolves ask ask') blank path
      (fun _ _ _ step good holds => ?_) ⟨ask, member, .refl ask⟩ later
    obtain ⟨ask', member', evolves⟩ := holds
    obtain ⟨ask'', member'', evolves'⟩ := step.evolves good member'
    exact ⟨ask'', member'', evolves.trans evolves'⟩
  · refine lasting (P := fun v => (settlements askId v.history).length ≤ 1) blank (.refl _)
      (fun _ _ _ step good once => step.settles_once good once) ?_ reached
    show (settlements askId w.history).length ≤ 1
    rw [blank.history]; exact Nat.zero_le 1
  · intro askId m mark
    have recorded : Recorded d.shared := by
      refine lasting blank (.refl _) (fun _ _ _ step good holds => step.records good holds) ?_ reached
      intro askId m mark
      rw [show (System.dormant w).shared.history = [] from blank.history] at mark
      cases mark
    obtain ⟨ask, member, rfl, state, carried⟩ := recorded askId m mark
    obtain ⟨reply, replied⟩ := good.inv.replied ask member state
    refine ⟨ask, member, rfl, state, carried, reply, replied.stored, ?_, replied.kind,
      replied.correlated, replied.sender, replied.hash⟩
    exact Option.some.inj (replied.recorded.symm.trans carried)

section Sample

/-- An ask of the coder, answered by the reviewer. -/
def askedAndAnswered : List (Move (Input Outside) Request Event) :=
  [start, .call (.ask "coder" ⟨["to", "body"], .ok ⟨"reviewer", "ping", [], none, none⟩⟩)] ++
    sections 0 9 1783242000 ++
  [.call (.reply "reviewer" ⟨["ask_id", "body"],
    .ok ⟨"0197d8a0-0000-7000-8000-000000000001", "pong", [], none⟩⟩)] ++ sections 1 4 1783242060

omit [Platform] in
theorem askedAndAnswered_answers : ∃ c, sampleService.Reaches blankWorld c ∧
    c.shared.store.asks.map (·.state) = [.answered] := by
  have ran : (sampleService.runs (System.dormant blankWorld) askedAndAnswered).map
      (fun c => c.shared.store.asks.map (·.state)) = some [.answered] := by decide +kernel
  obtain ⟨c, run, state⟩ := Option.map_eq_some_iff.mp ran
  exact ⟨c, System.leads_of_runs _ run, state⟩

end Sample

omit [Platform] in
theorem ticket_life_cycle_answered : ∃ c, sampleService.Reaches blankWorld c ∧
    c.shared.store.asks.map (·.state) = [.answered] ∧
    ∀ askId, (settlements askId c.shared.history).length ≤ 1 := by
  let _ := Platform.sample
  obtain ⟨c, path, state⟩ := askedAndAnswered_answers
  exact ⟨c, path, state, (ticket_life_cycle blankWorld_blank path (.refl c)).2.2.1⟩

/-- Every delivery and every committed reply is audited in every reachable state. -/
theorem audited_before_consumable (blank : Blank w) (path : service.Reaches w c) :
    (∀ d ∈ c.shared.store.deliveries, Enqueued c.shared.audit d.envelopeId d.recipient ∨
      FannedOut c.shared.audit d.envelopeId d.recipient) ∧
    ∀ ask ∈ c.shared.store.asks, ask.state = .answered → ∃ m, ask.replyMessageId = some m ∧
      Enqueued c.shared.audit m ask.fromCell := by
  have inv := (good_reachable blank path).1
  refine ⟨inv.deliveryAudited, fun ask member state => ?_⟩
  obtain ⟨reply, replied⟩ := inv.replied ask member state
  exact ⟨reply.messageId, replied.recorded, replied.audited⟩

omit [Platform] in
theorem audited_before_consumable_answered : ∃ c, sampleService.Reaches blankWorld c ∧
    ∃ ask ∈ c.shared.store.asks, ∃ m, ask.replyMessageId = some m ∧
      Enqueued c.shared.audit m ask.fromCell := by
  let _ := Platform.sample
  obtain ⟨c, path, state⟩ := askedAndAnswered_answers
  obtain ⟨ask, rest, same⟩ := List.map_eq_cons_iff.mp state
  have member : ask ∈ c.shared.store.asks := same.1 ▸ List.mem_cons_self
  exact ⟨c, path, ask, member,
    (audited_before_consumable blankWorld_blank path).2 ask member same.2.1⟩

end Crewd.Bus
