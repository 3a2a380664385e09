import Crewd.Bus.Runs

/-! Order within a pair. The loop claims what is due and offers the batch in order, so an
earlier message is still pending when a later one is offered exactly where a backoff or a
lease held it back, or where an outcome in the batch has not settled it. -/
namespace Crewd.Bus
open Autocommit Concurrent History

/-- The messages of the same sender that were enqueued for the recipient before this one. -/
def predecessors (messageId recipient : String) : List (Envelope × String) → List Envelope
  | [] => []
  | (env, r) :: before =>
    if env.messageId = messageId ∧ r = recipient then
      (before.filter fun entry => entry.2 = recipient ∧ entry.1.fromCell = env.fromCell).map (·.1)
    else predecessors messageId recipient before

/-- The earlier messages of the pair are settled when one is offered to the adapter of
this recipient. -/
def Ordered (recipient : String) (passed : List Passage) : Passage → Prop
  | .offered messageId r => r = recipient →
    ∀ earlier ∈ predecessors messageId r (enqueues passed), SettledIn earlier.messageId r passed
  | _ => True

/-- What is still pending of the earlier messages of the pair was not held back when the
batch was claimed, and has had no outcome applied in the batch that left it pending. -/
def Unhindered (recipient : String) (passed : List Passage) : Passage → Prop
  | .offered messageId r => r = recipient →
    ∀ earlier ∈ predecessors messageId r (enqueues passed), ¬ SettledIn earlier.messageId r passed →
      (earlier.messageId, r) ∉ heldNow passed ∧
        ∀ passage ∈ sinceClaiming passed, passage.applies earlier.messageId r = true →
          passage.final = true
  | _ => True

theorem predecessor_split {entries : List (Envelope × String)}
    (member : earlier ∈ predecessors messageId recipient entries) :
    ∃ env later before, env.messageId = messageId ∧ earlier.fromCell = env.fromCell ∧
      entries = later ++ (env, recipient) :: before ∧ (earlier, recipient) ∈ before := by
  induction entries with
  | nil => cases member
  | cons entry before ih =>
    obtain ⟨env, r⟩ := entry
    rw [predecessors] at member
    split at member
    · rename_i same
      obtain ⟨⟨other, r'⟩, inside, rfl⟩ := List.mem_map.mp member
      simp only [List.mem_filter, decide_eq_true_eq] at inside
      obtain ⟨inside, rfl, sender⟩ := inside
      exact ⟨env, [], before, same.1, sender, by rw [same.2]; rfl, inside⟩
    · obtain ⟨env', later, before', id, sender, rfl, inside⟩ := ih member
      exact ⟨env', (env, r) :: later, before', id, sender, rfl, inside⟩

theorem precedes_of_predecessor {passed : List Passage}
    (member : earlier ∈ predecessors messageId recipient (enqueues passed)) :
    ∃ env, env.messageId = messageId ∧ earlier.fromCell = env.fromCell ∧
      Precedes earlier env recipient passed := by
  obtain ⟨env, later, before, id, sender, same, inside⟩ := predecessor_split member
  exact ⟨env, id, sender, later, before, same, inside⟩

/-- What is still pending of the earlier messages was held back, or left pending by an
outcome in the batch. -/
def Hindered (passed : List Passage) : Passage → Prop
  | .offered messageId recipient =>
    ∀ earlier ∈ predecessors messageId recipient (enqueues passed),
      ¬ SettledIn earlier.messageId recipient passed →
      (earlier.messageId, recipient) ∈ heldNow passed ∨
        ∃ passage ∈ sinceClaiming passed,
          passage.applies earlier.messageId recipient = true ∧ passage.final = false
  | _ => True

theorem ordered_iff (hindered : Hindered passed mark) :
    Ordered recipient passed mark ↔ Unhindered recipient passed mark := by
  cases mark with
  | offered messageId r =>
    constructor
    · intro ordered asked earlier member pending
      exact absurd (ordered asked earlier member) pending
    · intro free asked earlier member
      by_contra pending
      obtain ⟨unheld, final⟩ := free asked earlier member pending
      rcases hindered earlier member pending with held | ⟨passage, inside, applies, unsettled⟩
      · exact unheld held
      · rw [final passage inside applies] at unsettled
        cases unsettled
  | _ => exact Iff.rfl

section Loop
variable [Platform]

/-- What the loop knows when it offers a message. -/
theorem InTurn.hindered {w : World} (turn : InTurn w messageId recipient) (good : Good w) :
    Hindered (passages w.history) (.offered messageId recipient) := by
  intro earlier member pending
  obtain ⟨env, id, sender, precedes⟩ := precedes_of_predecessor member
  refine (turn env earlier id sender precedes).resolve_left fun settled => pending ?_
  obtain ⟨later, before, same, inside⟩ := precedes
  have enqueued : (earlier, recipient) ∈ enqueues (passages w.history) := by
    rw [same]
    exact List.mem_append_right _ (List.mem_cons_of_mem _ inside)
  obtain ⟨d, stored, hit⟩ := good.passing.row_of_enqueued enqueued
  obtain ⟨known, rfl⟩ := delivery_is_iff.mp hit
  have left := good.passing.traced d stored
  rw [known] at left
  rw [SettledIn, left]
  have done := settled d stored hit
  cases state : d.state.settled with
  | true => simpa using state
  | false => rw [Delivery.pending_iff.mpr state] at done; cases done

theorem offers_hindered (blank : Blank w) (path : service.Reaches w c) :
    Each Hindered (passages c.shared.history) := by
  refine always (P := fun s => Each Hindered (passages s.history)) blank path ?_
    fun actor s t step good hindered => ?_
  · rw [blank.history]
    trivial
  · cases step.change with
    | still _ same => rwa [same]
    | moved moves =>
      rw [passages_moveRows]
      exact each_moves (good.inv.deliveriesOnce.sublist (List.filter_sublist.map _)) hindered
        fun _ _ _ _ _ => trivial
    | enqueued env recipient _ _ _ => exact ⟨hindered, trivial⟩
    | noted passage notes =>
      refine ⟨hindered, ?_⟩
      cases notes with
      | offered messageId recipient _ turn => exact turn.hindered good
      | _ => trivial

end Loop

/-- A recipient is offered the messages of each sender in their order exactly where no
earlier one that is still pending was held back or left pending by an outcome. -/
theorem offered_in_order_iff [Platform] (blank : Blank w) (path : service.Reaches w c)
    (recipient : String) : Each (Ordered recipient) (passages c.shared.history) ↔
      Each (Unhindered recipient) (passages c.shared.history) := by
  have hindered := offers_hindered blank path
  constructor
  · intro ordered
    exact (hindered.and ordered).imp fun _ _ both => (ordered_iff both.1).mp both.2
  · intro free
    exact (hindered.and free).imp fun _ _ both => (ordered_iff both.1).mpr both.2

section Sample

theorem lawful_pairs : LawfulBEq (String × String) := inferInstance

instance : ∀ mark, Decidable (Unhindered recipient passed mark)
  | .offered .. => by
    haveI := lawful_pairs
    dsimp only [Unhindered]
    infer_instance
  | .enqueued .. | .moved .. | .swept .. | .claiming .. | .applying .. | .announced .. |
    .pulling .. | .shown .. => instDecidableTrue

/-- The reviewer asks for its messages in order. -/
def orderedStart : Start := { adapterStart with
  acl := ⟨[("coder", sampleCell), ("ops", sampleCell),
    ("reviewer", { sampleCell with orderPreserving := true })], by decide⟩ }

theorem offered_in_order_iff_delivered : ∃ c, sampleService.Reaches blankWorld c ∧
    c.shared.store.deliveries.map (·.state) = [.delivered, .delivered] ∧
    Each (Ordered "reviewer") (passages c.shared.history) := by
  let _ := Platform.sample
  have ran : (sampleService.runs (System.dormant blankWorld)
      (startWith orderedStart :: sending 0 "coder" "reviewer" "k1" 1783242000 ++
        sending 1 "coder" "reviewer" "k2" 1783242000 ++ loopMoves 11 1783242001 .delivered)).map
      (fun c => decide (
        c.shared.store.deliveries.map (·.state) = [.delivered, .delivered] ∧
        Each (Unhindered "reviewer") (passages c.shared.history))) = some true := by
    decide +kernel
  obtain ⟨c, run, facts⟩ := Option.map_eq_some_iff.mp ran
  obtain ⟨rows, free⟩ := of_decide_eq_true facts
  have path : sampleService.Reaches blankWorld c := System.leads_of_runs _ run
  exact ⟨c, path, rows, (offered_in_order_iff blankWorld_blank path "reviewer").mpr free⟩

/-- The first message waits for its backoff when the second is offered. -/
theorem offered_out_of_order : ∃ c, sampleService.Reaches blankWorld c ∧
    (c.shared.memory.acl.get "reviewer").any (·.orderPreserving) = true ∧
    c.shared.store.deliveries.map (fun d => (d.envelopeId, d.state)) =
      [("0197d8a0-0000-7000-8000-000000000000", .queued),
        ("0197d8a0-0000-7000-8000-000000000001", .claimed)] ∧
    (passages c.shared.history).head? =
      some (.offered "0197d8a0-0000-7000-8000-000000000001" "reviewer") ∧
    ¬ Each (Ordered "reviewer") (passages c.shared.history) := by
  let _ := Platform.sample
  have ran : (sampleService.runs (System.dormant blankWorld)
      (startWith orderedStart :: sending 0 "coder" "reviewer" "k1" 1783242000 ++
        loopMoves 8 1783242001 .transientFailure ++
        sending 1 "coder" "reviewer" "k2" 1783242001 ++
        loopMoves 7 1783242001 .delivered)).map (fun c => decide (
          (c.shared.memory.acl.get "reviewer").any (·.orderPreserving) = true ∧
          c.shared.store.deliveries.map (fun d => (d.envelopeId, d.state)) =
            [("0197d8a0-0000-7000-8000-000000000000", .queued),
              ("0197d8a0-0000-7000-8000-000000000001", .claimed)] ∧
          (passages c.shared.history).head? =
            some (.offered "0197d8a0-0000-7000-8000-000000000001" "reviewer") ∧
          ∃ earlier ∈ predecessors "0197d8a0-0000-7000-8000-000000000001" "reviewer"
            (enqueues (passages c.shared.history).tail),
            ¬ SettledIn earlier.messageId "reviewer" (passages c.shared.history).tail)) =
              some true := by
    decide +kernel
  obtain ⟨c, run, facts⟩ := Option.map_eq_some_iff.mp ran
  obtain ⟨flag, rows, offered, earlier, member, pending⟩ := of_decide_eq_true facts
  refine ⟨c, System.leads_of_runs _ run, flag, rows, offered, fun ordered => pending ?_⟩
  rw [List.eq_cons_of_mem_head? offered] at ordered
  exact ordered.2 rfl earlier member

end Sample
end Crewd.Bus
