import Crewd.Bus.Grants

/-! Stored envelopes. The handlers never call the validator: an envelope is valid by
the way each tool builds it, it is stored by a section of a call of its sender, and a
reply takes its correlation from the table of asks, whose rows stored envelopes opened. -/
namespace Crewd.Bus
open Autocommit Concurrent

variable [Platform] {w : World} {t : BusTracked} {env : Envelope}

/-- A section of a call of the envelope's sender stored it. -/
def CreatedBySender (w : World) (t : BusTracked) (env : Envelope) : Prop :=
  ∃ (u v : BusTracked) (task : Nat) (i : Input Outside) (request : Request) (code : _), Run w u ∧
    u.config.pool[task]? = some (request, some code) ∧ request.author = env.fromCell ∧
    service.track u (.run task i) = some v ∧ env ∉ u.config.shared.store.envelopes ∧
    env ∈ v.config.shared.store.envelopes ∧ service.Follows (fun _ _ => True) v t

/-- The ask that the reply refers to went the other way. -/
def AnswersAsk (st : Store) (reply : Envelope) : Prop :=
  ∃ asked ∈ st.envelopes, asked.kind = .ask ∧ reply.replyTo = some asked.messageId ∧
    reply.askId = asked.askId ∧ asked.askId.isSome ∧ asked.toCell = some reply.fromCell ∧
    reply.toCell = some asked.fromCell

omit [Platform] in
theorem Opened.mono {row row' : AskRow} {st st' : Store} (opened : Opened st row)
    (more : ∀ env ∈ st.envelopes, env ∈ st'.envelopes) (id : row'.askId = row.askId)
    (message : row'.messageId = row.messageId) (sender : row'.fromCell = row.fromCell)
    (recipient : row'.toCell = row.toCell) : Opened st' row' := by
  obtain ⟨env, stored, facts⟩ := opened
  refine ⟨env, more env stored, ?_⟩
  rw [id, message, sender, recipient]
  exact facts

/-- What a step makes of the asks: each one was there before, or a stored envelope opens it. -/
theorem Statement.opens (step : Statement self w w') {row : Ask} (member : row ∈ w'.store.asks) :
    (∃ old ∈ w.store.asks, row.askId = old.askId ∧ row.messageId = old.messageId ∧
      row.fromCell = old.fromCell ∧ row.toCell = old.toCell) ∨ Opened w.store row.toAskRow := by
  have kept : row ∈ w.store.asks → (∃ old ∈ w.store.asks, row.askId = old.askId ∧
      row.messageId = old.messageId ∧ row.fromCell = old.fromCell ∧ row.toCell = old.toCell) ∨
      Opened w.store row.toAskRow :=
    fun old => .inl ⟨row, old, rfl, rfl, rfl, rfl⟩
  have updated : ∀ {askId : String} {f : Ask → Ask}, (∀ ask, (f ask).askId = ask.askId ∧
      (f ask).messageId = ask.messageId ∧ (f ask).fromCell = ask.fromCell ∧
      (f ask).toCell = ask.toCell) → row ∈ (w.store.updateAsk askId f).asks →
      (∃ old ∈ w.store.asks, row.askId = old.askId ∧ row.messageId = old.messageId ∧
        row.fromCell = old.fromCell ∧ row.toCell = old.toCell) ∨ Opened w.store row.toAskRow := by
    intro askId f keeps member
    rcases Inv.mem_updateAsk.mp member with ⟨old, _⟩ | ⟨old, stored, _, rfl⟩
    · exact kept old
    · exact .inl ⟨old, stored, keeps old⟩
  cases step with
  | quiet same => exact kept (same.store ▸ member)
  | ask new _ _ _ _ _ opened =>
    rcases List.mem_append.mp member with old | last
    · exact kept old
    · rw [List.mem_singleton.mp last]
      exact .inr opened
  | answered askId reply _ =>
    exact updated (f := Ask.answeredBy reply) (fun _ => ⟨rfl, rfl, rfl, rfl⟩) member
  | expired askId _ =>
    exact updated (f := fun ask => { ask with state := .expired }) (fun _ => ⟨rfl, rfl, rfl, rfl⟩)
      member
  | polled task askId _ _ _ =>
    simp only [pollWaker, Action.exec_step] at member
    split at member <;> exact kept member
  | polledAgain task askId _ _ _ =>
    simp only [pollWakerAgain] at member
    split at member <;> exact kept member
  | notified askId =>
    simp only [notifyAsker, Action.exec_step] at member
    split at member <;> exact kept member
  | _ => exact kept member

/-- Every ask was opened by an envelope that is stored. -/
theorem asks_opened {c : Config World (Input Outside) Request (Except BusError Answer)}
    (blank : Blank w) (reached : service.Reaches w c) :
    ∀ row ∈ c.shared.store.asks, Opened c.shared.store row.toAskRow := by
  apply always (P := fun s => ∀ row ∈ s.store.asks, Opened s.store row.toAskRow) blank reached
  · rw [blank.store]
    intro row member
    cases member
  · intro actor s s' step _ opened row member
    have more := step.grows.envelopes
    rcases step.opens member with ⟨old, stored, id, message, sender, recipient⟩ | now
    · exact (opened old stored).mono more id message sender recipient
    · exact now.mono more rfl rfl rfl rfl

theorem run_grows {u : BusTracked} (blank : Blank w) (before : Run w u)
    (later : service.Leads u.config t.config) : Grows u.config.shared t.config.shared := by
  apply lasting (P := Grows u.config.shared) blank before.leads _ (.refl _) later
  exact fun _ _ _ step _ grown => grown.trans step.grows

/-- Whatever is stored was stored by a section of a call that had the effect on it. -/
theorem created (blank : Blank w) (run : Run w t) (stored : env ∈ t.config.shared.store.envelopes) :
    CreatedBySender w t env ∧ ∃ u task request, Run w u ∧ service.Leads u.config t.config ∧
      Authored request (u.visits task) env := by
  induction run with
  | refl =>
    rw [Config.tracked, System.dormant, blank.store] at stored
    cases stored
  | @next u action v before fit tracked ih =>
    have moved := (System.next_of_track tracked).1
    have last : service.Leads u.config v.config := .next (.refl _) moved
    have still : env ∈ u.config.shared.store.envelopes → CreatedBySender w v env ∧
        ∃ u task request, Run w u ∧ service.Leads u.config v.config ∧
          Authored request (u.visits task) env := by
      intro old
      obtain ⟨created, u', task, request, run', later, authored⟩ := ih old
      obtain ⟨a, b, task', i, request', code, run'', found, sender, step, new, now, rest⟩ := created
      refine ⟨⟨a, b, task', i, request', code, run'', found, sender, step, new, now, ?_⟩,
        u', task, request, run', later.trans _ last, authored⟩
      exact rest.next fit tracked
    by_cases old : env ∈ u.config.shared.store.envelopes
    · exact still old
    rcases System.move_of_dormant program_does loop_tends happens_aside before tracked with
      ⟨task, i, request, code, rfl, found, effect⟩ | same | aside | ⟨i, _, crashed⟩
    · have authored := (effect.authored env stored).resolve_left old
      exact ⟨⟨u, v, task, i, request, code, before, found, authored.author.symm, tracked, old, stored,
        .refl _⟩, u, task, request, before, last, authored⟩
    · exact absurd (same ▸ stored) old
    · exact ((aside.drafted env stored).resolve_left old).elim
    · rw [crashed] at stored
      exact absurd stored old

/-- Every stored envelope is valid, was stored by a section of a call of its sender, and
as a reply it answers a stored ask that went the other way. -/
theorem stored_envelopes_well_formed (blank : Blank w) (run : Run w t)
    (stored : env ∈ t.config.shared.store.envelopes) :
    env.validateInvariants = .ok () ∧ CreatedBySender w t env ∧
      (env.kind = .reply → AnswersAsk t.config.shared.store env) := by
  obtain ⟨created, u, task, request, before, later, authored⟩ := created blank run stored
  refine ⟨authored.valid, created, fun reply => ?_⟩
  obtain ⟨visit, inside, ask, found, askId, replyTo, sender, recipient⟩ := authored.refers reply
  have grown := (visited_grows blank before task visit inside).trans (run_grows blank before later)
  obtain ⟨row, listed, id, message, asker, responder, _⟩ := grown.asks ask found
  obtain ⟨asked, there, sameMessage, kind, sameAsk, from_, to_⟩ := asks_opened blank run.leads row listed
  refine ⟨asked, there, kind, ?_, ?_, ?_, ?_, ?_⟩
  · rw [replyTo, sameMessage, message]
  · rw [askId, sameAsk, id]
  · rw [sameAsk]
    rfl
  · rw [to_, responder, sender]
  · rw [from_, asker, recipient]

omit [Platform] in
/-- The reviewer's reply to the vault. -/
theorem stored_envelopes_well_formed_reply : ∃ (t : BusTracked) (env : Envelope),
    sampleService.Follows (fun _ _ => True) (System.dormant blankWorld).tracked t ∧
    env ∈ t.config.shared.store.envelopes ∧ env.kind = .reply ∧ env.fromCell = "reviewer" ∧
    env.validateInvariants = .ok () ∧ @CreatedBySender .sample blankWorld t env ∧
    AnswersAsk t.config.shared.store env := by
  let _ := Platform.sample
  have ran : (sampleService.tracks (System.dormant blankWorld).tracked vaultAnswered).map (fun t =>
      decide (∃ env ∈ t.config.shared.store.envelopes, env.kind = .reply ∧
        env.fromCell = "reviewer")) = some true := by decide +kernel
  obtain ⟨t, run, facts⟩ := Option.map_eq_some_iff.mp ran
  obtain ⟨env, stored, reply, sender⟩ := of_decide_eq_true facts
  have follows : Run blankWorld t := System.follows_of_ran run
  have ⟨valid, created, answers⟩ := stored_envelopes_well_formed blankWorld_blank follows stored
  exact ⟨t, env, follows, stored, reply, sender, valid, created, answers reply⟩

end Crewd.Bus
