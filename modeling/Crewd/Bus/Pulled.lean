import Crewd.Wire
import Crewd.Bus.Acknowledged
import Crewd.Bus.Runs

/-! Pulled messages on their way to the client. The daemon bounds a page by the number
of its messages, the client bounds the line it reads by its bytes, and a message that was
pulled is not pulled again. -/
namespace Crewd.Bus
open Autocommit Concurrent Table

section Response

/-- The result of `cell_inbox`. -/
def inboxResult (messages : List Envelope) (more : Bool) : Json := .obj [
  ("has_more", .bool more),
  ("messages", .arr (messages.map Envelope.toValue))]

end Response

section Sizes

/-- The bytes of a page in a response. -/
def pageSize (messages : List Envelope) (more : Bool) : Nat :=
  45 + (if more then 4 else 5) + (messages.map Envelope.wireSize).sum + (messages.length - 1)

theorem length_responseLine (messages : List Envelope) (more : Bool) :
    (responseLine (inboxResult messages more)).length = pageSize messages more := by
  have keys : textSize "id" = 4 ∧ textSize "result" = 8 ∧ textSize "has_more" = 10 ∧
      textSize "messages" = 10 := by
    decide
  obtain ⟨k₁, k₂, k₃, k₄⟩ := keys
  have number : utf8Size (Json.num 2).render = 1 := by decide
  have flag : utf8Size (Json.bool more).render = if more then 4 else 5 := by
    cases more <;> decide
  have rows : (messages.map fun env => utf8Size env.toValue.render) =
      messages.map Envelope.wireSize := List.map_congr_left fun env _ => utf8Size_envelope env
  have page : utf8Size (Json.arr (messages.map Envelope.toValue)).render =
      2 + (messages.map Envelope.wireSize).sum + (messages.length - 1) := by
    simp only [utf8Size_array, renderItems_map, List.map_map, List.length_map, Function.comp_def, rows]
  simp only [responseLine, length_utf8, inboxResult, utf8Size_object, List.map_cons, List.map_nil,
    List.sum_cons, List.sum_nil, List.length_cons, List.length_nil, utf8Size_field, number, flag,
    page, pageSize]
  omega

end Sizes

section Pull
variable [Platform]

/-- The limit that a call works with. -/
def InboxParams.pageLimit (p : InboxParams) : Nat := min (p.limit.getD 50) 200

omit [Platform] in
/-- The section of `cell_inbox` that pulls, and the answer made of its page. -/
def pull (caller : String) (p : InboxParams) : Handler Answer := do
  let (messages, more) ← locked (inbox caller p.pageLimit)
  pure (.messages messages more)

/-- The deciding sections of the call. -/
def Pulls (caller : String) (params : Params InboxParams)
    (code : Process World (Input Outside) (Except BusError Answer)) : Prop :=
  ∃ p, params.parsed = .ok p ∧ code = (pull caller p).run

theorem handleInbox_decides (task : Nat) (caller : String) (params : Params InboxParams) :
    (service.program task (.inbox caller params)).Decides (Pulls caller params) Fails := by
  refine decides_bind fun _ => decides_parse fun p parsed => decides_bind fun _ => ?_
  exact .inl ⟨p, parsed, rfl⟩

omit [Platform] in
/-- The pull answers at once, from the page it reads. -/
theorem pull_step {code : Process World (Input Outside) (Except BusError Answer)}
    (ran : (pull caller p).run.step i w = some (code, t)) :
    t = ((inbox caller p.pageLimit).exec (w.install i)).2 ∧
    code = .done (((inbox caller p.pageLimit).exec (w.install i)).1.map fun page =>
      .messages page.1 page.2) := by
  cases ran
  refine ⟨rfl, ?_⟩
  change ExceptT.bindCont _ ((inbox caller p.pageLimit).exec (w.install i)).1 = _
  cases ((inbox caller p.pageLimit).exec (w.install i)).1 with
  | ok page => rfl
  | error e => rfl

omit [Platform] in
theorem pulls_final (caller : String) (params : Params InboxParams) :
    Final (Pulls caller params) := by
  rintro _ i s code' t ⟨p, _, rfl⟩ ran
  exact ⟨_, (pull_step ran).2⟩

/-- The first page of the inbox fits the client's bound. -/
def Store.PageFits (st : Store) (caller : String) (limit : Nat) : Prop :=
  pageSize (st.page caller limit) (decide ((st.inboxOrder caller).length > limit)) ≤ maxFrame

omit [Platform] in
/-- The rows that a pull marks delivered are those of its page. -/
theorem mem_afterPull {st : Store} (member : d ∈ (st.afterPull caller messages).deliveries) :
    d ∈ st.deliveries ∨ d.recipient = caller ∧ ∃ env ∈ messages, env.messageId = d.envelopeId := by
  obtain ⟨row, stored, rfl⟩ := mem_updateWhere.mp member
  by_cases hit : (row.envelopeId, row.recipient) ∈ messages.map fun env => (env.messageId, caller)
  · obtain ⟨env, listed, same⟩ := List.mem_map.mp hit
    simp only [Prod.mk.injEq] at same
    simp only [hit, decide_true, if_true]
    exact .inr ⟨same.2.symm, env, listed, same.1⟩
  · simp only [hit, decide_false, Bool.false_eq_true, if_false]
    exact .inl stored

/-- The move that answers a pull gives out the first page and moves its rows. -/
theorem pulled_page {w : World} {b b' : BusConfig} {params : Params InboxParams} (blank : Blank w)
    (reached : service.Reaches w b) (moved : service.next b (.run task i) = some b')
    (parsed : params.parsed = .ok p) (answered : b'.pool[task]? =
      some (.inbox caller params, some (.done (.ok (.messages messages more))))) :
    messages = b.shared.store.page caller p.pageLimit ∧
    more = decide ((b.shared.store.inboxOrder caller).length > p.pageLimit) ∧
    b'.shared.store = b.shared.store.afterPull caller messages := by
  obtain ⟨code, found, ⟨p', parsed', rfl⟩, ran⟩ := System.deciding_move (pulls_final caller params)
    (fun k => handleInbox_decides k caller params) reached moved answered fun failed => failed _ rfl
  cases parsed.symm.trans parsed'
  obtain ⟨store, answer⟩ := pull_step ran
  have good := good_unread _ _ (b.shared.quiet_install i) (good_reachable blank reached)
  have met : Meets (Statement (.task task)) _ _ _ := inbox_pulls good caller p.pageLimit
  have pulls := (met _ (World.at_snapshot _)).2
  cases page : ((inbox caller p.pageLimit).exec (b.shared.install i)).1 with
  | error e =>
    rw [page] at answer
    cases answer
  | ok found =>
    rw [page] at answer
    cases answer
    obtain ⟨same, rows⟩ := pulls _ page
    subst same
    exact ⟨rfl, rfl, by rw [store, rows]; rfl⟩

end Pull

/-- Every message that a pull marks delivered is in its answer, and the client reads the
answer, in whatever pieces it arrives, exactly when the first page fits its bound. -/
theorem pulled_pages_received_iff [Platform] {w : World} {b b' : BusConfig}
    {params : Params InboxParams} (blank : Blank w) (reached : service.Reaches w b)
    (moved : service.next b (.run task i) = some b') (parsed : params.parsed = .ok p)
    (answered : b'.pool[task]? =
      some (.inbox caller params, some (.done (.ok (.messages messages more))))) :
    (∀ d ∈ b'.shared.store.deliveries, d ∈ b.shared.store.deliveries ∨
      d.recipient = caller ∧ ∃ env ∈ messages, env.messageId = d.envelopeId) ∧
    (Received (responseLine (inboxResult messages more)) ↔
      b.shared.store.PageFits caller p.pageLimit) := by
  obtain ⟨page, rest, store⟩ := pulled_page blank reached moved parsed answered
  constructor
  · intro d member
    rw [store] at member
    exact mem_afterPull member
  · rw [received_iff (newline_not_response _), length_responseLine, page, rest]
    rfl

section Sample

/-- The request pulls with the default limit for the cell. -/
def Request.pullsFor (caller : String) : Request → Bool
  | .inbox caller' ⟨_, .ok p⟩ => caller' = caller ∧ p.limit = none
  | _ => false

theorem Request.pullsFor_eq {request : Request} (pulls : request.pullsFor caller = true) :
    ∃ params, request = .inbox caller params ∧ params.parsed = .ok ⟨none⟩ := by
  unfold Request.pullsFor at pulls
  split at pulls
  · rename_i caller' keys p
    obtain ⟨rfl, none⟩ := of_decide_eq_true pulls
    exact ⟨_, rfl, by rw [← none]⟩
  · cases pulls

/-- The call was answered with a page. -/
def isPage : Option (Except BusError Answer) → Bool
  | some (.ok (.messages _ _)) => true
  | _ => false

theorem isPage_eq {r : Option (Except BusError Answer)} (page : isPage r = true) :
    ∃ messages more, r = some (.ok (.messages messages more)) := by
  unfold isPage at page
  split at page
  · exact ⟨_, _, rfl⟩
  · cases page

/-- A pull of the reviewer up to its pulling section. -/
def pullingUpTo (task : Nat) : List (Move (Input Outside) Request Event) :=
  (pulling task "reviewer" 1783242001).dropLast

/-- The task has just answered a pull of the reviewer. -/
def PullAnswered (task : Nat) (b' : BusConfig) : Prop :=
  (b'.pool[task]?.map fun task => task.1.pullsFor "reviewer") = some true ∧
    isPage (b'.answer task) = true

instance : Decidable (PullAnswered task b') := inferInstanceAs (Decidable (_ ∧ _))

theorem PullAnswered.found (pulls : PullAnswered task b') : ∃ params messages more,
    params.parsed = .ok ⟨none⟩ ∧ b'.pool[task]? =
      some (.inbox "reviewer" params, some (.done (.ok (.messages messages more)))) := by
  obtain ⟨messages, more, answer⟩ := isPage_eq pulls.2
  obtain ⟨request, found⟩ := Config.answer_eq_some.mp answer
  have named := pulls.1
  rw [found] at named
  obtain ⟨params, rfl, parsed⟩ := Request.pullsFor_eq (Option.some.inj named)
  exact ⟨params, messages, more, parsed, found⟩

theorem pulled_pages_received_iff_sent : ∃ b b' messages more,
    sampleService.Reaches blankWorld b ∧
    sampleService.next b (.run 1 (moment 1783242001)) = some b' ∧
    b'.answer 1 = some (.ok (.messages messages more)) ∧
    (Received (responseLine (inboxResult messages more)) ↔
      b.shared.store.PageFits "reviewer" 50) := by
  let _ := Platform.sample
  have ran : ((sampleService.runs (System.dormant blankWorld) (startWith sampleStart ::
      sending 0 "coder" "reviewer" "k1" 1783242000 ++ pullingUpTo 1)).bind fun b =>
      (sampleService.next b (.run 1 (moment 1783242001))).map fun b' =>
        decide (PullAnswered 1 b')) = some true := by
    decide +kernel
  obtain ⟨b, reached, ran⟩ := Option.bind_eq_some_iff.mp ran
  obtain ⟨b', moved, facts⟩ := Option.map_eq_some_iff.mp ran
  obtain ⟨params, messages, more, parsed, answered⟩ := (of_decide_eq_true facts).found
  have path : sampleService.Reaches blankWorld b := System.leads_of_runs _ reached
  exact ⟨b, b', messages, more, path, moved, Config.answer_eq_some.mpr ⟨_, answered⟩,
    (pulled_pages_received_iff blankWorld_blank path moved parsed answered).2⟩

/-- A reference of a size that a request to the daemon can carry. -/
def longRef : String := String.ofList (List.replicate 100400 'x')

theorem replicate_size (n : Nat) : n ≤ textSize (String.ofList (List.replicate n 'x')) := by
  have cost : escapedSize 'x' = 1 := by decide
  simp [textSize, String.toList_ofList, List.map_replicate, List.sum_replicate, cost]

theorem wireSize_referring {env : Envelope} {text : String} (refs : env.fileRefs = [text]) :
    textSize text ≤ env.wireSize := by
  have listed : textsSize env.fileRefs = 2 + textSize text := by simp [refs, textsSize]
  unfold Envelope.wireSize
  omega

/-- Two messages with a long reference each are longer than the client's bound and a read. -/
theorem long_too_long {first second : Envelope} (refs : first.fileRefs = [longRef])
    (refs' : second.fileRefs = [longRef]) (more : Bool) :
    maxFrame + 4096 ≤ pageSize [first, second] more := by
  have size : 100400 ≤ textSize longRef := replicate_size _
  have size₁ := wireSize_referring refs
  have size₂ := wireSize_referring refs'
  have whole : 49 + first.wireSize + second.wireSize ≤ pageSize [first, second] more := by
    simp only [pageSize, List.map_cons, List.map_nil, List.sum_cons, List.sum_nil]
    split <;> omega
  unfold maxFrame
  omega

/-- A send that is acknowledged while its key is not bound is held by the store. -/
theorem sent_held [Platform] {w : World} {c₀ c₁ b b' : BusConfig} {params : Params SendParams}
    (blank : Blank w) (reached : service.Reaches w c₀)
    (called : service.next c₀ (.call (.send caller params)) = some c₁) (path : service.Leads c₁ b)
    (moved : service.next b (.run c₀.pool.length i) = some b') (parsed : params.parsed = .ok p)
    (answered : b'.answer c₀.pool.length = some (.ok (.enqueued m)))
    (unbound : (Decision.send caller p).bound b.shared = none) :
    Held b'.shared.store (p.submission caller) m none := by
  obtain ⟨request, finished⟩ := Config.answer_eq_some.mp answered
  have started := (reached.next called).trans _ path
  obtain ⟨rfl, _⟩ := System.task_becomes (path.next moved) (System.call_next called) finished
  obtain ⟨code, found, ⟨d, belongs, rfl⟩, _⟩ := System.deciding_move (deciding_final _)
    (submits_decides (.send caller params) trivial) started moved finished fun failed => failed _ rfl
  obtain ⟨answer, shared⟩ := decided_move found moved
  have outcome := d.outcome .main b.shared i (good_reachable blank started)
  rw [← shared] at outcome
  cases d with
  | send caller' p' =>
    obtain ⟨rfl, parsed'⟩ := belongs
    cases parsed.symm.trans parsed'
    generalize ((Decision.send caller' p).submit.exec (b.shared.install i)).1 = r at answer outcome
    cases answer.symm.trans answered
    generalize same : Except.ok (Answer.enqueued m) = r at outcome
    cases outcome with
    | replayed _ bound _ _ => cases unbound.symm.trans bound
    | written _ acknowledged held =>
      cases same
      cases acknowledged
      exact held
    | unread _ => cases same
    | duplicate _ _ _ => cases same
    | unwritten _ => cases same
  | ask _ _ => exact absurd belongs id
  | broadcast _ _ _ => exact absurd belongs id

/-- A pending message is as it was submitted. -/
theorem Held.listed [Platform] {w : World} {sub : Submission} (good : Good w)
    (held : Held w.store sub m askId) (member : env ∈ w.store.inboxOrder recipient)
    (name : env.messageId = m) : env.fileRefs = sub.fileRefs := by
  obtain ⟨stored, inside, id, agrees, _⟩ := held.envelope
  obtain ⟨d, _, _, _, known⟩ := mem_inboxOrder.mp member
  obtain rfl : env = stored :=
    List.inj_on_of_nodup_map good.inv.envelopesOnce (envelope_found known).1 inside (name.trans id.symm)
  exact agrees.fileRefs

/-- A send that refers to a file. -/
def referring (key : String) : SendParams :=
  ⟨"reviewer", "ping", [longRef], some key, none, none⟩

def referringCall (key : String) : Request :=
  .send "coder" ⟨["to", "body", "file_refs", "idempotency_key"], .ok (referring key)⟩

/-- Two messages with a long reference each are pulled: they are marked delivered, the client
gives their line up however it arrives, and the next pull does not return them. -/
theorem pulled_messages_are_lost : ∃ b b' c messages more,
    sampleService.Reaches blankWorld b ∧
    sampleService.next b (.run 2 (moment 1783242001)) = some b' ∧
    b'.answer 2 = some (.ok (.messages messages more)) ∧
    GivenUp (responseLine (inboxResult messages more)) ∧
    b'.shared.store.deliveries.map (·.state) = [.delivered, .delivered] ∧
    sampleService.Leads b' c ∧ c.answer 3 = some (.ok (.messages [] false)) := by
  let _ := Platform.sample
  have ran : ((sampleService.runs (System.dormant blankWorld) [startWith sampleStart]).bind fun c₀ =>
      (sampleService.next c₀ (.call (referringCall "k1"))).bind fun c₁ =>
      (sampleService.runs c₁ (sections 0 8 1783242000)).bind fun s =>
      (sampleService.next s (.run 0 (moment 1783242000))).bind fun s' =>
      (sampleService.next s' (.call (referringCall "k2"))).bind fun d₁ =>
      (sampleService.runs d₁ (sections 1 8 1783242000)).bind fun t =>
      (sampleService.next t (.run 1 (moment 1783242000))).bind fun t' =>
      (sampleService.runs t' (pullingUpTo 2)).bind fun b =>
      (sampleService.next b (.run 2 (moment 1783242001))).bind fun b' =>
      (sampleService.runs b' (pulling 3 "reviewer" 1783242002)).map fun c => decide (
        (c₀.pool.length = 0 ∧ (Decision.send "coder" (referring "k1")).bound s.shared = none ∧
          s'.answer 0 = some (.ok (.enqueued "0197d8a0-0000-7000-8000-000000000000"))) ∧
        (s'.pool.length = 1 ∧ (Decision.send "coder" (referring "k2")).bound t.shared = none ∧
          t'.answer 1 = some (.ok (.enqueued "0197d8a0-0000-7000-8000-000000000001"))) ∧
        (b.shared.store.inboxOrder "reviewer").map (·.messageId) =
          ["0197d8a0-0000-7000-8000-000000000000", "0197d8a0-0000-7000-8000-000000000001"] ∧
        PullAnswered 2 b' ∧ b'.shared.store.deliveries.map (·.state) = [.delivered, .delivered] ∧
        c.answer 3 = some (.ok (.messages [] false)))) = some true := by
    decide +kernel
  obtain ⟨c₀, reached, ran⟩ := Option.bind_eq_some_iff.mp ran
  obtain ⟨c₁, called, ran⟩ := Option.bind_eq_some_iff.mp ran
  obtain ⟨s, sending, ran⟩ := Option.bind_eq_some_iff.mp ran
  obtain ⟨s', sent, ran⟩ := Option.bind_eq_some_iff.mp ran
  obtain ⟨d₁, called', ran⟩ := Option.bind_eq_some_iff.mp ran
  obtain ⟨t, sending', ran⟩ := Option.bind_eq_some_iff.mp ran
  obtain ⟨t', sent', ran⟩ := Option.bind_eq_some_iff.mp ran
  obtain ⟨b, calling, ran⟩ := Option.bind_eq_some_iff.mp ran
  obtain ⟨b', moved, ran⟩ := Option.bind_eq_some_iff.mp ran
  obtain ⟨c, later, facts⟩ := Option.map_eq_some_iff.mp ran
  obtain ⟨⟨first, unbound, enqueued⟩, ⟨second, unbound', enqueued'⟩, listed, pull, states, empty⟩ :=
    of_decide_eq_true facts
  have start : sampleService.Reaches blankWorld c₀ := System.leads_of_runs _ reached
  have writing := System.leads_of_runs _ sending
  have sentAt := ((start.next called).trans _ writing).next sent
  have writing' := System.leads_of_runs _ sending'
  have resumed : sampleService.Leads s' t := ((System.Leads.refl s').next called').trans _ writing'
  have sentAt' := (sentAt.trans _ resumed).next sent'
  have pulling' := System.leads_of_runs _ calling
  have path := sentAt'.trans _ pulling'
  obtain ⟨params, messages, more, parsed, answered⟩ := pull.found
  refine ⟨b, b', c, messages, more, path, moved, Config.answer_eq_some.mpr ⟨_, answered⟩, ?_, states,
    System.leads_of_runs _ later, empty⟩
  have good := good_reachable blankWorld_blank path
  have held := held_later blankWorld_blank sentAt ((resumed.next sent').trans _ pulling')
    (sent_held blankWorld_blank start called writing (first ▸ sent) rfl (first ▸ enqueued) unbound)
  have held' := held_later blankWorld_blank sentAt' pulling'
    (sent_held blankWorld_blank sentAt called' writing' (second ▸ sent') rfl (second ▸ enqueued')
      unbound')
  have page := (pulled_page blankWorld_blank path moved parsed answered).1
  obtain ⟨env, rest, order, name, listed⟩ := List.map_eq_cons_iff.mp listed
  obtain ⟨env', rfl, name'⟩ := List.map_eq_singleton_iff.mp listed
  have two : b.shared.store.page "reviewer" (InboxParams.pageLimit ⟨none⟩) = [env, env'] := by
    rw [Store.page, order]
    rfl
  apply givenUp_of_long (newline_not_response _)
  rw [length_responseLine, page, two]
  exact long_too_long (held.listed good (order ▸ List.mem_cons_self) name)
    (held'.listed good (order ▸ List.mem_cons_of_mem _ (List.mem_singleton_self _)) name') more

end Sample
end Crewd.Bus
