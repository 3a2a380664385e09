import Crewd.Lib.Endings
import Crewd.Bus.Soundness

/-! What an acknowledged submission is worth. The three submitting tools share one
dedupe table, and a replay compares nothing but the hash of the body; a submission
is kept exactly when its key does not clash with an earlier one of equal hash. -/
namespace Crewd.Bus
open Autocommit Concurrent

/-- The deciding section of a submitting call, with what the gates handed to it. -/
inductive Decision where
  | send (caller : String) (p : SendParams)
  | ask (caller : String) (p : AskParams)
  | broadcast (caller : String) (p : BroadcastParams) (acl : Acl)

namespace Decision

def caller : Decision → String
  | send caller _ | ask caller _ | broadcast caller _ _ => caller

def idempotencyKey : Decision → Option String
  | send _ p => p.idempotencyKey
  | ask _ p => p.idempotencyKey
  | broadcast _ p _ => p.idempotencyKey

def submission : Decision → Submission
  | send caller p => p.submission caller
  | ask caller p => p.submission caller
  | broadcast caller p acl => p.submission caller (acl.recipientsForBroadcast caller).1

def replay : Decision → DedupeHit → Answer
  | send _ _, hit => .enqueued hit.messageId
  | ask _ _, hit => .pendingAsk hit.askId hit.messageId
  | broadcast caller _ acl, hit => .fannedOut hit.messageId (acl.recipientsForBroadcast caller).1

/-- The decision belongs to the call. -/
def Of : Request → Decision → Prop
  | .send caller params, send caller' p => caller' = caller ∧ params.parsed = .ok p
  | .ask caller params, ask caller' p => caller' = caller ∧ params.parsed = .ok p
  | .broadcast caller params, broadcast caller' p _ => caller' = caller ∧ params.parsed = .ok p
  | _, _ => False

variable [Platform]

def submit : Decision → Act Answer
  | send caller p => submitSend caller p
  | ask caller p => submitAsk caller p
  | broadcast caller p acl => submitBroadcast caller p (acl.recipientsForBroadcast caller).1
      (acl.recipientsForBroadcast caller).2

/-- The key that the section works with: the client's, or the next identifier. -/
def key (d : Decision) (w : World) : String := d.idempotencyKey.getD (Platform.uuid w.minted)

/-- The row that the key is bound to. -/
def bound (d : Decision) (w : World) : Option Dedupe := w.store.binding d.caller (d.key w)

end Decision

def Request.Submits : Request → Prop
  | .send _ _ | .ask _ _ | .broadcast _ _ => True
  | _ => False

/-- The identifiers by which an answer acknowledges a submission. -/
def Answer.acknowledged : Answer → Option (String × Option String)
  | .enqueued messageId => some (messageId, none)
  | .pendingAsk askId messageId => some (messageId, askId)
  | .fannedOut messageId _ => some (messageId, none)
  | _ => none

/-- The first statement of the section does not fail. -/
def Clear (i : Input Outside) : Prop := ∀ text, i.faults.head? ≠ some (some text)

section Section
variable [Platform]

theorem keyOrNew_exec (key : Option String) (w : World) : ∃ w₁, w.Quiet w₁ ∧
    w₁.input = w.input ∧ (keyOrNew key).exec w = (.ok (key.getD (Platform.uuid w.minted)), w₁) := by
  cases key with
  | some key => exact ⟨w, .rfl, rfl, rfl⟩
  | none =>
    exact ⟨{ w with minted := w.minted + 1 }, ⟨.refl _, .refl _, .refl _, .refl _, Nat.le_succ _⟩,
      rfl, rfl⟩

/-- What a fresh submission of the decision leaves behind. -/
def Decision.Writes (self : Actor) (d : Decision) (w w₁ : World) (fresh : Act Answer) : Prop :=
  Good w → w.store.binding d.caller (d.key w) = none →
    Meets (Statement self) (·.At (snap w₁)) fresh (fun a w' => ∃ m askId,
      a.acknowledged = some (m, askId) ∧ Held w'.store d.submission m askId)

/-- Up to the dedupe decision a section only draws identifiers. -/
theorem Decision.submit_exec (self : Actor) (d : Decision) (w : World) : ∃ w₁ fresh,
    w.Quiet w₁ ∧ w₁.input = w.input ∧ d.Writes self w w₁ fresh ∧ d.submit.exec w =
      (deduped d.caller (d.key w) d.submission.body d.replay fresh).exec w₁ := by
  have moved : ∀ w₁ : World, w.Quiet w₁ → snap w₁ = (snap w).drawn w₁.minted := fun w₁ quiet => by
    simp [snap, World.snapshot, Snap.drawn, quiet.store, quiet.audit, quiet.memory, quiet.history]
  cases d with
  | send caller p =>
    obtain ⟨w₁, quiet, input, ran⟩ := keyOrNew_exec p.idempotencyKey w
    refine ⟨w₁, freshSend caller p (key (send caller p) w), quiet, input, fun good unbound => ?_, ?_⟩
    · rw [moved w₁ quiet]
      refine (freshSend_meets good.inv good.passing quiet.minted unbound).weaken (fun _ h => h) ?_
      rintro _ _ ⟨m, rfl, held⟩
      exact ⟨m, none, rfl, held⟩
    · simp only [submit, submitSend, Action.exec_bind, ran]
      rfl
  | ask caller p =>
    obtain ⟨w₁, quiet, input, ran⟩ := keyOrNew_exec p.idempotencyKey w
    have next : w.Quiet { w₁ with minted := w₁.minted + 1 } :=
      ⟨quiet.store, quiet.audit, quiet.memory, quiet.history, Nat.le_succ_of_le quiet.minted⟩
    refine ⟨{ w₁ with minted := w₁.minted + 1 },
      freshAsk caller p (key (ask caller p) w) (Platform.uuid w₁.minted), next, input,
      fun good unbound => ?_, ?_⟩
    · rw [moved _ next]
      refine (freshAsk_meets good.inv good.passing quiet.minted unbound).weaken (fun _ h => h) ?_
      rintro _ _ ⟨m, rfl, held⟩
      exact ⟨m, _, rfl, held⟩
    · simp only [submit, submitAsk, Action.exec_bind, ran]
      rfl
  | broadcast caller p acl =>
    obtain ⟨w₁, quiet, input, ran⟩ := keyOrNew_exec p.idempotencyKey w
    refine ⟨w₁, freshBroadcast caller p (acl.recipientsForBroadcast caller).1
      (acl.recipientsForBroadcast caller).2 (key (broadcast caller p acl) w), quiet, input,
      fun good unbound => ?_, ?_⟩
    · rw [moved w₁ quiet]
      refine (freshBroadcast_meets good.inv quiet.minted unbound
        (acl.recipientsForBroadcast_nodup caller)).weaken (fun _ h => h) ?_
      rintro _ _ ⟨m, rfl, held⟩
      exact ⟨m, none, rfl, held⟩
    · simp only [submit, submitBroadcast, Action.exec_bind, ran]
      rfl

omit [Platform] in
/-- The lookup of the section either fails, or reads the row bound to the key. -/
theorem dedupeLookup_exec (caller key : String) (w : World) : ∃ w', w.Quiet w' ∧
    (Clear w.input ∧ (dedupeLookup caller key).exec w =
      (.ok ((w.store.binding caller key).map (·.toDedupeHit)), w') ∨
      ¬ Clear w.input ∧ ∃ text, (dedupeLookup caller key).exec w = (.error (.internal text), w')) := by
  refine ⟨((dedupeLookup caller key).exec w).2, Silent.query _ w, ?_⟩
  simp only [dedupeLookup, query, mayFail, nextFault, Action.exec_bind, Action.exec_step]
  cases faults : w.input.faults with
  | nil => exact .inl ⟨by simp [Clear, faults], rfl⟩
  | cons fault later =>
    cases fault with
    | none => exact .inl ⟨by simp [Clear, faults], rfl⟩
    | some text => exact .inr ⟨fun clear => clear text (by simp [faults]), text, rfl⟩

/-- An earlier submission is bound to the key and says something else. -/
def Decision.Reuses (d : Decision) (w : World) : Prop :=
  ∃ row, d.bound w = some row ∧ ∃ env ∈ w.store.envelopes, env.messageId = row.messageId ∧
    ¬ d.submission.Matches env

/-- The key is bound to a row of the same body hash, and what it is bound to is not
this submission with a delivery to each of its recipients. -/
def Decision.Clashes (d : Decision) (i : Input Outside) (w : World) : Prop :=
  Clear i ∧ ∃ row, d.bound w = some row ∧
    row.bodySha256 = Platform.sha256 d.submission.body ∧
    ¬ ∃ env ∈ w.store.envelopes, env.messageId = row.messageId ∧ d.submission.Matches env ∧
      ∀ r ∈ d.submission.recipients, HasDelivery w.store env.messageId r

/-- What the section of a decision comes to, all cases. -/
inductive Outcome (d : Decision) (i : Input Outside) (w : World) :
    Except BusError Answer → World → Prop
  | unread : ¬ Clear i → Outcome d i w (.error (.internal text)) w'
  | replayed : Clear i → d.bound w = some row →
      row.bodySha256 = Platform.sha256 d.submission.body → w.Quiet w' →
      Outcome d i w (.ok (d.replay row.toDedupeHit)) w'
  | duplicate : Clear i → d.bound w = some row →
      row.bodySha256 ≠ Platform.sha256 d.submission.body → Outcome d i w (.error (.dup text)) w'
  | written : d.bound w = none → a.acknowledged = some (m, askId) →
      Held w'.store d.submission m askId → Outcome d i w (.ok a) w'
  | unwritten : d.bound w = none → Outcome d i w (.error e) w'

theorem Decision.outcome (self : Actor) (d : Decision) (w : World) (i : Input Outside)
    (good : Good w) : Outcome d i w (d.submit.exec (w.install i)).1 (d.submit.exec (w.install i)).2 := by
  obtain ⟨w₁, fresh, quiet, input, writes, ran⟩ := d.submit_exec self (w.install i)
  have bound : w₁.store.binding d.caller (d.key (w.install i)) = d.bound w := by
    rw [quiet.store]; rfl
  rw [ran]
  simp only [deduped, Action.exec_bind]
  obtain ⟨w₂, quiet', ⟨clear, looked⟩ | ⟨fault, text, looked⟩⟩ :=
    dedupeLookup_exec d.caller (d.key (w.install i)) w₁
  · have clear : Clear i := by rw [← show w₁.input = i from input]; exact clear
    rw [looked, bound]
    cases found : d.bound w with
    | some row =>
      simp only [Option.map_some]
      by_cases same : row.bodySha256 = Platform.sha256 d.submission.body
      · simp only [same, if_true, Action.exec_pure]
        exact .replayed clear found same ((w.quiet_install i).trans (quiet.trans quiet'))
      · simp only [same, if_false, Action.exec_throw]
        exact .duplicate clear found same
    | none =>
      have installed : Statement self w (w.install i) := .quiet (w.quiet_install i)
      have here : Good (w.install i) := installed.good good
      have met := (writes here found w₂ (w₁.at_snapshot.quiet quiet')).2
      simp only [Option.map_none]
      cases run : fresh.exec w₂ with
      | mk result w' =>
        rw [run] at met
        cases result with
        | ok a =>
          obtain ⟨m, askId, acknowledged, held⟩ := met a rfl
          exact .written found acknowledged held
        | error e => exact .unwritten found
  · rw [looked]
    exact .unread (by rw [← show w₁.input = i from input]; exact fault)

end Section

section Kept
variable [Platform]

abbrev BusConfig := Config World (Input Outside) Request (Except BusError Answer)

/-- What a submitting call is promised, at the move that decides it. -/
structure Kept (task : Nat) (d : Decision) (i : Input Outside) (before after : BusConfig) :
    Prop where
  acknowledged : ∀ a m askId, after.answer task = some (.ok a) →
    a.acknowledged = some (m, askId) → ∀ later, service.Leads after later →
      Held later.shared.store d.submission m askId
  refused : d.Reuses before.shared →
    ∃ e, after.answer task = some (.error e) ∧ (Clear i → e.code = "E_DUP")

/-- The deciding sections of a call. -/
def Deciding (request : Request)
    (code : Process World (Input Outside) (Except BusError Answer)) : Prop :=
  ∃ d, Decision.Of request d ∧ code = (locked d.submit).run

theorem decides_here {d : Decision} (belongs : Decision.Of request d) :
    (locked d.submit).run.Decides (Deciding request) Fails := .inl ⟨d, belongs, rfl⟩

/-- Every way through a submitting call fails or comes to its decision. -/
theorem submits_decides (request : Request) (submits : request.Submits) (task : Nat) :
    (service.program task request).Decides (Deciding request) Fails := by
  cases request with
  | send caller params =>
    refine decides_bind fun _ => decides_parse fun p parsed => decides_bind fun _ => ?_
    refine decides_bind fun _ => decides_bind fun _ => decides_bind fun _ => ?_
    refine decides_bind fun _ => decides_bind fun _ => ?_
    exact decides_here (d := .send caller p) ⟨rfl, parsed⟩
  | ask caller params =>
    refine decides_bind fun _ => decides_parse fun p parsed => decides_bind fun _ => ?_
    refine decides_bind fun _ => decides_bind fun _ => decides_bind fun _ => ?_
    refine decides_bind fun _ => decides_bind fun _ => decides_bind fun _ => ?_
    exact decides_here (d := .ask caller p) ⟨rfl, parsed⟩
  | broadcast caller params =>
    refine decides_bind fun _ => decides_parse fun p parsed => decides_bind fun _ => ?_
    refine decides_bind fun _ => decides_bind fun _ => decides_bind fun _ => ?_
    refine decides_bind fun acl => decides_bind fun _ => decides_bind fun _ => ?_
    refine decides_bind fun _ => decides_bind fun _ => ?_
    exact decides_here (d := .broadcast caller p acl) ⟨rfl, parsed⟩
  | await _ _ | reply _ _ | inbox _ _ | reportToolCorrelation _ _ | opStatus _ _ =>
    exact absurd submits id

theorem deciding_final (request : Request) : Final (Deciding request) := by
  rintro _ i s code' t ⟨d, _, rfl⟩ ran
  cases ran
  exact ⟨_, rfl⟩

/-- The deciding move installs its input and answers from its section. -/
theorem decided_move {c c' : BusConfig} {d : Decision}
    (found : c.pool[task]? = some (request, some (locked d.submit).run))
    (ran : service.next c (.run task i) = some c') :
    c'.answer task = some (d.submit.exec (c.shared.install i)).1 ∧
      c'.shared = (d.submit.exec (c.shared.install i)).2 := by
  have inside : task < c.pool.length := (List.getElem?_eq_some_iff.mp found).1
  simp only [System.next, found] at ran
  split at ran
  · obtain ⟨⟨code', t⟩, stepped, rfl⟩ := Option.map_eq_some_iff.mp ran
    cases stepped
    refine ⟨Config.answer_eq_some.mpr ⟨request, ?_⟩, rfl⟩
    simp only [List.getElem?_set_self inside]
  · cases ran

/-- A replay without a clash is a replay of this very submission. -/
theorem held_of_bound (inv : Inv w) {d : Decision} (found : d.bound w = some row)
    (member : env ∈ w.store.envelopes) (same : env.messageId = row.messageId)
    (agrees : d.submission.Matches env)
    (delivered : ∀ r ∈ d.submission.recipients, HasDelivery w.store env.messageId r)
    (acknowledged : (d.replay row.toDedupeHit).acknowledged = some (m, askId)) :
    Held w.store d.submission m askId := by
  obtain ⟨env', member', id, _, _, _, ticket⟩ := inv.bound row (List.mem_of_find?_eq_some found)
  have unique : env' = env :=
    List.inj_on_of_nodup_map inv.envelopesOnce member' member (id.trans same.symm)
  subst unique
  have message : m = row.messageId ∧ (d.submission.kind = .ask → askId = row.askId) := by
    cases d <;> cases acknowledged <;> exact ⟨rfl, fun kind => by first | rfl | cases kind⟩
  refine ⟨⟨env', member, same.trans message.1.symm, agrees, fun kind => ?_⟩, fun r h => ?_⟩
  · obtain ⟨ask, known, has⟩ := ticket (agrees.kind.trans kind)
    exact ⟨ask, (message.2 kind).trans known, has⟩
  · rw [message.1, ← same]; exact delivered r h

/-- What is held when the call answers is held for good. -/
theorem held_later (blank : Blank w) (reached : service.Reaches w c) (later : service.Leads c d)
    (held : Held c.shared.store sub m askId) : Held d.shared.store sub m askId :=
  lasting (P := fun v => Held v.store sub m askId) blank reached
    (fun _ _ _ step _ held => held.mono step.grows) held later

/-- With a clash the decision acknowledges what the store does not hold. -/
theorem clash_breaks {c c' : BusConfig} {d : Decision} (clash : d.Clashes i c.shared)
    (answer : c'.answer task = some r) (outcome : Outcome d i c.shared r c'.shared) :
    ¬ Kept task d i c c' := by
  intro kept
  obtain ⟨clear, row, found, hash, other⟩ := clash
  cases outcome with
  | unread fault => exact fault clear
  | duplicate _ found' differs =>
    cases found.symm.trans found'
    exact differs hash
  | written unbound _ _ => rw [unbound] at found; cases found
  | unwritten unbound => rw [unbound] at found; cases found
  | replayed _ found' _ quiet =>
    cases found.symm.trans found'
    obtain ⟨askId, named⟩ : ∃ askId, (d.replay row.toDedupeHit).acknowledged =
        some (row.messageId, askId) := by
      cases d <;> exact ⟨_, rfl⟩
    have held := kept.acknowledged _ _ _ answer named c' (.refl c')
    rw [quiet.store] at held
    obtain ⟨env, member, same, agrees, _⟩ := held.envelope
    exact other ⟨env, member, same, agrees, fun r h => same ▸ held.deliveries r h⟩

/-- Every successful submission was decided on the way, and a decision keeps what
it acknowledges and refuses a reused key exactly when its key does not clash. -/
theorem submission_kept_iff (blank : Blank w) (reached : service.Reaches w c) :
    (∀ task request a, request.Submits → c.pool[task]? = some (request, some (.done (.ok a))) →
      System.Decided service (Deciding request) w task request (.ok a) c) ∧
    ∀ task request d i c', c.pool[task]? = some (request, some (locked d.submit).run) →
      service.next c (.run task i) = some c' →
      (Kept task d i c c' ↔ ¬ d.Clashes i c.shared) := by
  refine ⟨fun task request a submits finished => ?_, fun task request d i c' found ran => ?_⟩
  · exact System.decided_of_answer (deciding_final request) (submits_decides request submits)
      reached finished fun failed => failed a rfl
  have good := good_reachable blank reached
  obtain ⟨answer, shared⟩ := decided_move found ran
  have outcome := d.outcome (.task task) c.shared i good
  rw [← shared] at outcome
  generalize (d.submit.exec (c.shared.install i)).1 = r at answer outcome
  refine ⟨fun kept clash => clash_breaks clash answer outcome kept, fun free => ⟨?_, ?_⟩⟩
  · intro a m askId same acknowledged later leads
    refine held_later blank (reached.next ran) leads ?_
    cases answer.symm.trans same
    cases outcome with
    | replayed clear bound hash quiet =>
      rw [quiet.store]
      by_contra lost
      exact free ⟨clear, _, bound, hash, fun ⟨env, member, id, agrees, delivered⟩ =>
        lost (held_of_bound good.inv bound member id agrees delivered acknowledged)⟩
    | written _ named held =>
      cases named.symm.trans acknowledged
      exact held
  · rintro ⟨row, found, env, member, id, differs⟩
    cases outcome with
    | unread fault => exact ⟨_, answer, fun clear => absurd clear fault⟩
    | duplicate _ _ _ => exact ⟨_, answer, fun _ => rfl⟩
    | written unbound _ _ => rw [unbound] at found; cases found
    | unwritten unbound => rw [unbound] at found; cases found
    | replayed clear bound hash _ =>
      cases found.symm.trans bound
      refine absurd ⟨clear, row, found, hash, fun ⟨env', member', id', agrees, _⟩ => ?_⟩ free
      have unique : env' = env :=
        List.inj_on_of_nodup_map good.inv.envelopesOnce member' member (id'.trans id.symm)
      exact differs (unique ▸ agrees)

end Kept

section Sample

/-- The coder sends the same text under one key, to the named cell. -/
def sendPing (task : Nat) (toCell : String) : List (Move (Input Outside) Request Event) :=
  [.call (.send "coder" ⟨["to", "body", "idempotency_key"],
    .ok ⟨toCell, "ping", [], some "k1", none, none⟩⟩)] ++ sections task 8 1783242000

def Request.sendsTo (toCell : String) : Request → Bool
  | .send _ ⟨_, .ok p⟩ => p.toCell = toCell
  | _ => false

theorem submission_kept_iff_sent : ∃ before after i d,
    sampleService.Reaches blankWorld before ∧ sampleService.next before (.run 0 i) = some after ∧
    after.answer 0 = some (.ok (.enqueued "0197d8a0-0000-7000-8000-000000000000")) ∧
    (@Kept .sample 0 d i before after ↔ ¬ @Decision.Clashes .sample d i before.shared) := by
  let _ := Platform.sample
  have ran : (sampleService.runs (System.dormant blankWorld)
      (start :: sendPing 0 "reviewer")).map (fun c => (c.answer 0,
        c.pool[0]?.map fun task => task.1 matches .send _ _)) =
      some (some (.ok (.enqueued "0197d8a0-0000-7000-8000-000000000000")), some true) := by
    decide +kernel
  obtain ⟨c, run, facts⟩ := Option.map_eq_some_iff.mp ran
  simp only [Prod.mk.injEq] at facts
  obtain ⟨request, finished⟩ := Config.answer_eq_some.mp facts.1
  have submits : request.Submits := by
    have sends := facts.2
    rw [finished] at sends
    cases request <;> first | trivial | simp at sends
  have path : sampleService.Reaches blankWorld c := System.leads_of_runs _ run
  obtain ⟨before, after, i, _, reached, found, ⟨d, _, rfl⟩, moved, answered, _⟩ :=
    ((submission_kept_iff blankWorld_blank path).1 0 request _ submits finished).move
  exact ⟨before, after, i, d, reached, moved, Config.answer_eq_some.mpr ⟨request, answered⟩,
    (submission_kept_iff blankWorld_blank reached).2 0 request d i after found moved⟩

/-- The second send has another recipient; it is acknowledged with the identifier of
the first, and no envelope and no delivery goes to its recipient. -/
theorem reused_key_is_acknowledged : ∃ c, sampleService.Reaches blankWorld c ∧
    (c.pool[1]?.map fun task => task.1.sendsTo "ops") = some true ∧
    c.answer 1 = some (.ok (.enqueued "0197d8a0-0000-7000-8000-000000000000")) ∧
    (∀ env ∈ c.shared.store.envelopes, env.toCell ≠ some "ops") ∧
    ∀ m, ¬ HasDelivery c.shared.store m "ops" := by
  have ran : (sampleService.runs (System.dormant blankWorld)
      (start :: sendPing 0 "reviewer" ++ sendPing 1 "ops")).map (fun c => decide (
        (c.pool[1]?.map fun task => task.1.sendsTo "ops") = some true ∧
        c.answer 1 = some (.ok (.enqueued "0197d8a0-0000-7000-8000-000000000000")) ∧
        c.shared.store.envelopes.map (·.toCell) = [some "reviewer"] ∧
        c.shared.store.deliveries.map (·.recipient) = ["reviewer"])) = some true := by
    decide +kernel
  obtain ⟨c, run, facts⟩ := Option.map_eq_some_iff.mp ran
  obtain ⟨sends, answer, targets, recipients⟩ := of_decide_eq_true facts
  refine ⟨c, System.leads_of_runs _ run, sends, answer, fun env member target => ?_, ?_⟩
  · have listed := List.mem_map_of_mem (f := (·.toCell)) member
    rw [targets, target] at listed
    simp at listed
  · rintro m ⟨row, member, _, recipient⟩
    have listed := List.mem_map_of_mem (f := (·.recipient)) member
    rw [recipients, recipient] at listed
    simp at listed

end Sample
end Crewd.Bus
