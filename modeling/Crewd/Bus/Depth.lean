import Crewd.Bus.Lawful
import Crewd.Bus.Walks

/-! The bound on the recipients' queues. A send and an ask count the queue in one section,
check the count in the next and insert their message sections later; a reply and a
broadcast insert without a count. The bound is kept where no queue is longer at the insert
than it was when counted, and where the check that is left out would have passed. -/
namespace Crewd.Bus
open Autocommit Concurrent History Table

section Queues
variable {p : Delivery → Bool} {f : Delivery → Delivery}

/-- An update that revives no row leaves no queue longer. -/
theorem pendingFor_updateWhere (st : Store) (keeps : ∀ d, (f d).recipient = d.recipient)
    (lasting : ∀ d ∈ st.deliveries, p d = true → d.pending = false → (f d).pending = false)
    (recipient : String) :
    Store.pendingFor { st with deliveries := updateWhere p f st.deliveries } recipient ≤
      st.pendingFor recipient := by
  simp only [Store.pendingFor, updateWhere, ← List.countP_eq_length_filter, List.countP_map]
  apply List.countP_mono_left
  intro d member holds
  simp only [Function.comp_apply] at holds
  split at holds
  · next touched =>
    rw [keeps] at holds
    by_cases pending : d.pending = true
    · simpa [pending] using And.left (by simpa using holds)
    · rw [lasting d member touched (by simpa using pending), Bool.and_false] at holds
      cases holds
  · exact holds

theorem pendingFor_appended (st : Store) (messageId recipient r : String) :
    Store.pendingFor { st with
      deliveries := st.deliveries ++ [⟨messageId, recipient, .queued, 0, none, 0⟩] } r =
      st.pendingFor r + if recipient = r then 1 else 0 := by
  simp only [Store.pendingFor, List.filter_append, List.length_append, List.filter_singleton]
  congr 1
  by_cases same : recipient = r <;> simp [same, Delivery.pending]

theorem Delivery.not_pending_iff {d : Delivery} : d.pending = false ↔ d.state.settled = true := by
  rw [← Bool.not_eq_true, Delivery.pending_iff, Bool.not_eq_false]

end Queues

section Flow
variable [Platform]

/-- The recipient's queue grows by no more than what is enqueued for it. -/
def Flows (recipient : String) (s t : World) : Prop :=
  t.store.pendingFor recipient + sentTo recipient s ≤
    s.store.pendingFor recipient + sentTo recipient t

omit [Platform] in
theorem Change.flows (change : Change actor s t) (claimed : Each RetriesClaimed (passages t.history))
    (recipient : String) : Flows recipient s t := by
  cases change with
  | still rows same =>
    simp only [Flows, Store.pendingFor, rows, sentTo, sent, same]
    exact Nat.le_refl _
  | @moved cause p f moves =>
    rw [passages_moveRows] at claimed
    have lasting : ∀ d ∈ s.store.deliveries, p d = true → d.pending = false →
        (f d).pending = false := by
      intro d member touched
      obtain ⟨before, fit⟩ := fits_moves claimed (List.mem_filter.mpr ⟨member, touched⟩)
      rw [Delivery.not_pending_iff, Delivery.not_pending_iff]
      refine moves.lasting member touched ?_
      rintro rfl
      exact fit
    have fewer := pendingFor_updateWhere s.store (fun d => (moves.keeps d).2) lasting recipient
    have same : sentTo recipient (moveRows cause p f s) = sentTo recipient s := by
      rw [sentTo, sent, passages_moveRows, enqueues_moves isMove_moveMarks, sentTo, sent]
    rw [Flows, same]
    exact Nat.add_le_add_right fewer _
  | enqueued env r _ _ _ =>
    have longer := pendingFor_appended s.store env.messageId r recipient
    have more : sentTo recipient { s with
        store := { s.store with
          deliveries := s.store.deliveries ++ [⟨env.messageId, r, .queued, 0, none, 0⟩] }
        history := .passed (.enqueued env r) :: s.history } =
        sentTo recipient s + if r = recipient then 1 else 0 := by
      simp [sentTo, sent, enqueues, Passage.enqueue, List.countP_cons]
    rw [Flows, more]
    dsimp only
    omega
  | noted passage notes =>
    cases notes <;> exact Nat.le_refl _

/-- What flows along each step flows along a run. -/
theorem flows_leads (blank : Blank w) (path : service.Reaches w c) (later : service.Leads c d)
    (claimed : Each RetriesClaimed (passages d.shared.history)) (recipient : String) :
    Flows recipient c.shared d.shared := by
  refine lasting (P := fun s => Each RetriesClaimed (passages s.history) →
    Flows recipient c.shared s) blank path (fun actor s t step _ flows claimed => ?_)
    (fun _ => Nat.le_refl _) later claimed
  have first := flows (claimed.suffix (step.grows.history.filterMap Mark.passage))
  have last := step.change.flows claimed recipient
  unfold Flows at first last ⊢
  omega

end Flow

section Bound
variable [Platform]

omit [Platform] in
/-- No more is pending for the recipient than when the call counted its queue; where a tool
counts nothing, the check that it leaves out would pass. -/
def Request.Unfilled (request : Request) (visits : BusVisits) (w : World) (recipient : String) :
    Prop :=
  match request.counting with
  | some place => ∃ counted, visits[place]? = some counted ∧
    w.store.pendingFor recipient ≤ counted.2.store.pendingFor recipient
  | none => w.memory.quota.checkQueueDepth (w.store.pendingFor recipient) = .ok ()

/-- So it is wherever a submission is written that is not a replay, and no start comes with
a smaller queue depth than a section has run under. -/
def Unfilled (t : BusTracked) : Move (Input Outside) Request Event → Prop
  | .run task _ => ∀ called ∈ t.config.pool[task]?,
      called.1.writing = some (t.visits task).length → called.1.Fresh t.config.shared →
      ∀ recipient ∈ called.1.targets (t.visits task),
        called.1.Unfilled (t.visits task) t.config.shared recipient
  | .crash i => ∀ start, i.outside.start = some start → ∀ task < t.config.pool.length,
    ∀ v ∈ t.visits task, v.2.memory.queueDepth ≤ start.quota.queueDepth
  | _ => True

omit [Platform] in
theorem checkQueueDepth_ok_iff {quota : QuotaTracker} {pending : Nat} :
    quota.checkQueueDepth pending = .ok () ↔ pending < quota.config.queueDepth := by
  unfold QuotaTracker.checkQueueDepth
  split
  · exact ⟨nofun, fun below => by omega⟩
  · exact ⟨fun _ => by omega, fun _ => rfl⟩

/-- The check of the count, or the one that is left out, has room for the message. -/
theorem Adds.room {request : Request} {visits : BusVisits} {w w' : World} {recipient : String}
    (adds : Adds request visits w w' recipient) (unfilled : request.Unfilled visits w recipient)
    (same : ∀ v ∈ visits, v.2.memory.quota.config = w.memory.quota.config) :
    w.store.pendingFor recipient < w.memory.queueDepth := by
  unfold Request.Unfilled at unfilled
  split at unfilled
  · next place counting =>
    obtain ⟨counted, seen, fewer⟩ := unfilled
    obtain ⟨counted', checked, seen', checks, passed⟩ := adds.admitted place counting
    cases seen.symm.trans seen'
    have below := checkQueueDepth_ok_iff.mp passed
    rw [same checked (List.mem_of_getElem? checks)] at below
    exact Nat.lt_of_le_of_lt fewer below
  · exact checkQueueDepth_ok_iff.mp unfilled

/-- While the daemon is up the queues are within their depth, and each was within a depth
that a section has run under. -/
structure Bounded (t : BusTracked) : Prop where
  now : t.config.up = true → ∀ recipient,
    t.config.shared.store.pendingFor recipient ≤ t.config.shared.memory.queueDepth
  seen : ∀ recipient, t.config.shared.store.pendingFor recipient = 0 ∨ ∃ task,
    ∃ v ∈ t.visits task, t.config.shared.store.pendingFor recipient ≤ v.2.memory.queueDepth

omit [Platform] in
/-- A queue that does not grow stays within its bounds. -/
theorem Bounded.shrink {u v : BusTracked} (bounded : Bounded u) (up : v.config.up = u.config.up)
    (depth : v.config.shared.memory.queueDepth = u.config.shared.memory.queueDepth)
    (visited : ∀ k, ∀ x ∈ u.visits k, x ∈ v.visits k)
    (fewer : ∀ recipient, v.config.shared.store.pendingFor recipient ≤
      u.config.shared.store.pendingFor recipient) : Bounded v := by
  constructor
  · intro running recipient
    rw [depth]
    exact Nat.le_trans (fewer recipient) (bounded.now (up ▸ running) recipient)
  · intro recipient
    have less := fewer recipient
    rcases bounded.seen recipient with none | ⟨task, x, inside, within⟩
    · exact .inl (by omega)
    · exact .inr ⟨task, x, visited task x inside, Nat.le_trans less within⟩

/-- A start that lowers no bound keeps the queues within theirs. -/
theorem Bounded.restarted {u : BusTracked} (bounded : Bounded u) (fit : Unfilled u (.crash i))
    (called : ∀ task, u.config.pool.length ≤ task → u.visits task = []) :
    Bounded ⟨service.crashed i u.config, u.visits⟩ := by
  refine ⟨fun up recipient => ?_, bounded.seen⟩
  obtain ⟨start, started⟩ := Option.isSome_iff_exists.mp (show i.outside.start.isSome from up)
  have depth : (restart i u.config.shared).1.memory.queueDepth = start.quota.queueDepth := by
    simp only [restart, started, Option.getD_some]
    rfl
  show u.config.shared.store.pendingFor recipient ≤
    (restart i u.config.shared).1.memory.queueDepth
  rw [depth]
  rcases bounded.seen recipient with none | ⟨task, v, inside, within⟩
  · omega
  · have below : task < u.config.pool.length := by
      by_contra outside
      rw [called task (Nat.not_lt.mp outside)] at inside
      cases inside
    exact Nat.le_trans within (fit start started task below v inside)

/-- A section that enqueues one message more for a recipient had room for it. -/
theorem Bounded.written {u v : BusTracked} (bounded : Bounded u)
    (fixed : System.Fixed (fun w : World => w.memory.quota.config) u)
    (fit : Unfilled u (.run task i)) (tracked : service.track u (.run task i) = some v)
    (found : u.config.pool[task]? = some (request, some code))
    (moved : Effect request (u.visits task) u.config.shared v.config.shared)
    (flows : ∀ recipient, Flows recipient u.config.shared v.config.shared) : Bounded v := by
  obtain ⟨stepped, _⟩ := System.next_of_track tracked
  obtain ⟨visited, here⟩ := System.visits_of_track tracked
  have same : ∀ x ∈ u.visits task,
      x.2.memory.quota.config = u.config.shared.memory.quota.config := by
    obtain ⟨_, _, _, found', ran, _⟩ := System.run_next stepped
    cases found.symm.trans found'
    cases code with
    | done a => simp [Process.step] at ran
    | atomic ready act next => exact fixed task _ ready act next found
  have depth : v.config.shared.memory.queueDepth = u.config.shared.memory.queueDepth :=
    congrArg QuotaConfig.queueDepth moved.config
  have up : v.config.up = u.config.up := by
    rcases System.up_of_next stepped with ⟨_, crash⟩ | up
    · cases crash
    · exact up
  have within : ∀ recipient, v.config.shared.store.pendingFor recipient ≤
      u.config.shared.store.pendingFor recipient ∨
      v.config.shared.store.pendingFor recipient ≤ u.config.shared.memory.queueDepth := by
    intro recipient
    have flow := flows recipient
    unfold Flows at flow
    rcases moved.adds recipient with hushed | adds
    · exact .inl (by omega)
    · have unfilled := fit _ found adds.writes adds.fresh recipient adds.target
      have room := adds.room unfilled same
      have more := adds.more
      exact .inr (by omega)
  constructor
  · intro running recipient
    rw [depth]
    exact (within recipient).elim
      (fun fewer => Nat.le_trans fewer (bounded.now (up ▸ running) recipient)) id
  · intro recipient
    rcases within recipient with fewer | room
    · rcases bounded.seen recipient with none | ⟨k, x, inside, less⟩
      · exact .inl (by omega)
      · exact .inr ⟨k, x, visited k x inside, Nat.le_trans fewer less⟩
    · exact .inr ⟨task, _, here task i rfl, room⟩

theorem Bounded.next {u v : BusTracked} (blank : Blank w)
    (before : service.Follows Unfilled (System.dormant w).tracked u) (fit : Unfilled u action)
    (tracked : service.track u action = some v)
    (claimed : Each RetriesClaimed (passages v.config.shared.history)) (bounded : Bounded u) :
    Bounded v := by
  obtain ⟨stepped, _⟩ := System.next_of_track tracked
  obtain ⟨visited, _⟩ := System.visits_of_track tracked
  have flows := fun recipient =>
    flows_leads blank before.leads (.next (.refl _) stepped) claimed recipient
  have crashed : ∀ i, action = .crash i → Bounded v := by
    rintro i rfl
    cases tracked
    have standing := (System.standing_tracked _).follows program_does before
    exact bounded.restarted fit standing.unvisited
  rcases System.up_of_next stepped with ⟨i, crash⟩ | up
  · exact crashed i crash
  rcases System.move_of_dormant program_does loop_tends happens_aside before tracked with
    ⟨task, i, request, code, rfl, found, moved⟩ | same | aside | ⟨i, crash, _⟩
  · exact bounded.written (config_fixed before) fit tracked found moved flows
  · exact bounded.shrink up (by rw [same]) visited fun recipient => (by rw [same])
  · refine bounded.shrink up (by rw [Memory.queueDepth, aside.quota, Memory.queueDepth]) visited
      fun recipient => ?_
    have flow := flows recipient
    rw [Flows, aside.sentTo_eq] at flow
    omega
  · exact crashed i crash

theorem bounded_run {t : BusTracked} (blank : Blank w)
    (run : service.Follows Unfilled (System.dormant w).tracked t)
    (claimed : Each RetriesClaimed (passages t.config.shared.history)) : Bounded t := by
  induction run with
  | refl =>
    refine ⟨nofun, fun recipient => .inl ?_⟩
    show w.store.pendingFor recipient = 0
    rw [blank.store]
    rfl
  | @next u action v before fit tracked ih =>
    have grown : Grows u.config.shared v.config.shared :=
      lasting (P := Grows u.config.shared) blank before.leads
        (fun _ _ _ step _ grown => grown.trans step.grows) (.refl _)
        (.next (.refl _) (System.next_of_track tracked).1)
    have earlier := claimed.suffix (grown.history.filterMap Mark.passage)
    exact (ih earlier).next blank before fit tracked claimed

/-- In a run in which no queue is longer at an insert than when it was counted, unchecked
inserts would pass the check, no start lowers the depth and no attempt failure is recorded on
a pulled row, no recipient has more pending deliveries than the depth of its queue. -/
theorem queue_depth_bounded {t : BusTracked} (blank : Blank w)
    (run : service.Follows Unfilled (System.dormant w).tracked t)
    (claimed : Each RetriesClaimed (passages t.config.shared.history)) (up : t.config.up = true)
    (recipient : String) :
    t.config.shared.store.pendingFor recipient ≤ t.config.shared.memory.queueDepth :=
  (bounded_run blank run claimed).now up recipient

end Bound

section Sample

/-- Queues of one message. -/
def narrowStart : Start := { sampleStart with quota := { QuotaConfig.default with queueDepth := 1 } }

instance [Platform] {request : Request} {w : World} : Decidable (request.Fresh w) := by
  unfold Request.Fresh Unbound
  split <;> infer_instance

instance {request : Request} {visits : BusVisits} {w : World} {recipient : String} :
    Decidable (request.Unfilled visits w recipient) :=
  match counting : request.counting with
  | some place => decidable_of_iff (∃ counted, visits[place]? = some counted ∧
      w.store.pendingFor recipient ≤ counted.2.store.pendingFor recipient)
    (by rw [Request.Unfilled, counting])
  | none => decidable_of_iff (w.memory.quota.checkQueueDepth (w.store.pendingFor recipient) = .ok ())
    (by rw [Request.Unfilled, counting])

instance [Platform] (t : BusTracked) :
    (action : Move (Input Outside) Request Event) → Decidable (Unfilled t action)
  | .run _ _ => inferInstanceAs (Decidable (∀ called ∈ _, _))
  | .crash _ => inferInstanceAs (Decidable (∀ _ : Start, _ → ∀ task < _, ∀ v ∈ _, _))
  | .call _ | .main _ | .event _ => inferInstanceAs (Decidable True)

/-- The queue of one is filled, refused to an ask, pulled and filled again. -/
def refilling : List (Move (Input Outside) Request Event) :=
  startWith narrowStart :: sending 0 "coder" "reviewer" "k1" 1783242000 ++
    asking "ops" "reviewer" "k2" :: sections 1 4 1783242001 ++ pulling 2 "reviewer" 1783242002 ++
    sending 3 "coder" "reviewer" "k3" 1783242003

theorem queue_depth_bounded_refilled : ∃ t : BusTracked,
    sampleService.Follows (@Unfilled .sample) (System.dormant blankWorld).tracked t ∧
    t.config.shared.store.pendingFor "reviewer" ≤ t.config.shared.memory.queueDepth ∧
    t.config.shared.store.deliveries.map (·.state) = [.delivered, .queued] ∧
    t.config.answer 1 = some (.error (.quota "recipient queue full (1 pending)")) := by
  let _ := Platform.sample
  have ran : (sampleService.tracks (System.dormant blankWorld).tracked refilling).map
      (fun t => decide (t.config.up = true ∧
        t.config.shared.store.deliveries.map (·.state) = [.delivered, .queued] ∧
        t.config.answer 1 = some (.error (.quota "recipient queue full (1 pending)")) ∧
        Each RetriesClaimed (passages t.config.shared.history))) = some true := by decide +kernel
  have fitting : System.decideFits Unfilled sampleService (System.dormant blankWorld).tracked
      refilling = true := by decide +kernel
  obtain ⟨t, run, facts⟩ := Option.map_eq_some_iff.mp ran
  obtain ⟨up, rows, refused, claimed⟩ := of_decide_eq_true facts
  have follows := System.follows_of_tracks run fitting
  exact ⟨t, follows, queue_depth_bounded blankWorld_blank follows claimed up "reviewer", rows,
    refused⟩

/-- A broadcast inserts into the full queue of the reviewer. -/
theorem broadcast_overfills : ∃ c, sampleService.Reaches blankWorld c ∧
    c.shared.memory.queueDepth = 1 ∧ c.shared.store.pendingFor "reviewer" = 2 := by
  have ran : (sampleService.runs (System.dormant blankWorld)
      (startWith narrowStart :: sending 0 "coder" "reviewer" "k1" 1783242000 ++
        broadcasting 1 "coder" "k2" 1783242001)).map (fun c => decide (
          c.shared.memory.queueDepth = 1 ∧ c.shared.store.pendingFor "reviewer" = 2)) =
        some true := by
    decide +kernel
  obtain ⟨c, run, facts⟩ := Option.map_eq_some_iff.mp ran
  exact ⟨c, System.leads_of_runs _ run, of_decide_eq_true facts⟩

end Sample
end Crewd.Bus
