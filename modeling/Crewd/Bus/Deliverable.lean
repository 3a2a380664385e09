import Crewd.Bus.Runs

/-! No delivery gets stuck: in every reachable state a pending row is claimed from some
time on and pulled at any time, because each update of a row leaves a claimed row
with a lease and no update removes a row. -/
namespace Crewd.Bus
open Autocommit Concurrent Table

section Rules
variable {st : Store} {α : Type}

theorem note_succeeds (passage : World → Passage) :
    Succeeds (Intact st) (note passage) (fun _ => Intact st) :=
  Succeeds.step fun _ intact => intact

theorem moveDeliveries_succeeds (cause : Cause) (p : Delivery → Bool) (f : Delivery → Delivery) :
    Succeeds (Intact st) (moveDeliveries cause p f)
      (fun _ => Intact { st with deliveries := updateWhere p f st.deliveries }) := by
  apply mayFail_succeeds.bind
  intro _
  apply Succeeds.step
  rintro w ⟨same, works⟩
  exact ⟨by simp only [moveRows, same], works⟩

/-- A loop over updates, whatever it does to the tables. -/
theorem updates_succeed {xs : List α} {f : α → Act PUnit}
    (each : ∀ x ∈ xs, ∀ st, Succeeds (Intact st) (f x) (fun _ => Unfailing)) :
    Succeeds (Intact st) (ForM.forM xs f) (fun _ => Unfailing) := by
  have loop : Succeeds Unfailing (ForM.forM xs f) (fun _ => Unfailing) :=
    Succeeds.forM fun x member w works => each x member w.store w ⟨rfl, works⟩
  exact loop.weaken (fun _ intact => intact.2) fun _ _ works => works

/-- The tables once the claims that lapsed are released. -/
def Store.released (st : Store) (now : Int) : Store := { st with
  deliveries := updateWhere (·.lapsed now)
    (fun d => { d with state := .queued, leaseUntil := none }) st.deliveries }

theorem claimDue_succeeds (now lease : Int) (max : Nat) :
    Succeeds (Intact st) (claimDue now lease max) (fun claimed _ => claimed =
      (((st.released now).joined fun d _ => d.due now).take max).map
        fun (d, env) => (env, d.recipient)) := by
  apply (moveDeliveries_succeeds .released _ _).bind
  intro _
  apply (note_succeeds _).bind
  intro _
  apply (query_succeeds _).bind
  intro rows w ⟨intact, found⟩
  subst found
  refine (updates_succeed fun row _ st => ?_).bind (fun _ => Succeeds.pure fun _ _ => rfl) w intact
  exact mayFail_succeeds.bind fun _ =>
    (moveDeliveries_succeeds .claimed _ _).weaken (fun _ intact => intact) fun _ _ intact => intact.2

theorem inbox_succeeds (recipient : String) (limit : Nat) :
    Succeeds (Intact st) (inbox recipient limit) (fun pulled _ =>
      pulled.1 = (st.inboxOrder recipient).take limit) := by
  apply (query_succeeds _).bind
  intro rows w ⟨intact, found⟩
  refine ((note_succeeds _).bind fun _ => ?_) w intact
  refine (updates_succeed fun env _ st => ?_).bind fun _ => ?_
  · exact (moveDeliveries_succeeds .pulled _ _).weaken (fun _ intact => intact)
      fun _ _ intact => intact.2
  · refine Succeeds.bind (Q := fun _ _ => True) (Succeeds.step fun _ _ => trivial) fun _ => ?_
    apply Succeeds.pure
    intro _ _
    rw [found, List.take_take, Nat.min_eq_left (Nat.le_succ limit)]

end Rules

section Rows
variable {st : Store} {row : Delivery}

/-- A time from which neither a backoff nor a lease holds the row back. -/
def Delivery.ripe (row : Delivery) : Int := max row.nextRetryAt (row.leaseUntil.getD row.nextRetryAt)

theorem joined_length (keep : Delivery → Envelope → Bool) :
    (st.joined keep).length ≤ st.deliveries.length := by
  have part : ((st.joined keep).map (·.1)).Sublist st.deliveries := joined_sublist
  simpa using part.length_le

/-- From then on a release leaves the row due. -/
theorem Delivery.due_released (pending : row.pending = true)
    (leased : row.state = .claimed → row.leaseUntil.isSome) (late : row.ripe ≤ now)
    (member : row ∈ st.deliveries) :
    ∃ d ∈ (st.released now).deliveries, d.envelopeId = row.envelopeId ∧
      d.recipient = row.recipient ∧ d.due now = true := by
  have retry : row.nextRetryAt ≤ now := by simp only [Delivery.ripe] at late; omega
  by_cases lapsed : row.lapsed now = true
  · refine ⟨_, mem_updateWhere.mpr ⟨row, member, (if_pos lapsed).symm⟩, rfl, rfl, ?_⟩
    simp [Delivery.due, retry]
  · refine ⟨row, mem_updateWhere.mpr ⟨row, member, (if_neg lapsed).symm⟩, rfl, rfl, ?_⟩
    simp only [Delivery.pending, Bool.decide_or, Bool.or_eq_true, decide_eq_true_eq] at pending
    rcases pending with queued | claimed
    · simp [Delivery.due, queued, retry]
    · obtain ⟨lease, known⟩ := Option.isSome_iff_exists.mp (leased claimed)
      refine absurd ?_ lapsed
      simp only [Delivery.ripe, known, Option.getD_some] at late
      simp only [Delivery.lapsed, claimed, known, decide_true, Bool.true_and, decide_eq_true_eq]
      omega

end Rows

/-- The row is in reach of both ways of delivery: a claim returns it from some time on,
and a pull of its recipient returns it at any time. -/
structure Deliverable (st : Store) (row : Delivery) : Prop where
  leased : row.state = .claimed → row.leaseUntil.isSome
  claimable : row.pending = true → ∃ ripe : Int, ∀ now lease : Int, ∀ max : Nat, ripe ≤ now →
    st.deliveries.length ≤ max → Succeeds (Intact st) (claimDue now lease max)
      (fun claimed _ => ∃ env, (env, row.recipient) ∈ claimed ∧ env.messageId = row.envelopeId)
  visible : row.pending = true → ∀ limit : Nat, st.deliveries.length ≤ limit →
    Succeeds (Intact st) (inbox row.recipient limit)
      (fun pulled _ => ∃ env ∈ pulled.1, env.messageId = row.envelopeId)

section Reachable
variable [Platform]

theorem Good.claimable (good : Good w) (member : row ∈ w.store.deliveries)
    (pending : row.pending = true) (late : row.ripe ≤ now) (enough : w.store.deliveries.length ≤ most) :
    Succeeds (Intact w.store) (claimDue now lease most)
      (fun claimed _ => ∃ env, (env, row.recipient) ∈ claimed ∧ env.messageId = row.envelopeId) := by
  refine (claimDue_succeeds now lease most).weaken (fun _ intact => intact) fun claimed _ same => ?_
  subst same
  obtain ⟨d, released, id, recipient, due⟩ :=
    Delivery.due_released pending (good.passing.leased row member) late member
  obtain ⟨env, stored, known⟩ := good.inv.deliveryKnown row member
  have found : (w.store.released now).envelope d.envelopeId = some env := by
    have listed : env ∈ (w.store.released now).envelopes := stored
    rw [id, ← known]
    exact envelope_of_mem good.inv.envelopesOnce listed
  have short : ((w.store.released now).joined fun d _ => d.due now).length ≤ most := by
    refine Nat.le_trans (joined_length _) ?_
    simpa [Store.released, updateWhere] using enough
  refine ⟨env, List.mem_map.mpr ⟨(d, env), ?_, by simp only [recipient]⟩, known⟩
  rw [List.take_of_length_le short]
  exact mem_joined.mpr ⟨released, found, due⟩

theorem Good.visible (good : Good w) (member : row ∈ w.store.deliveries)
    (pending : row.pending = true) (enough : w.store.deliveries.length ≤ limit) :
    Succeeds (Intact w.store) (inbox row.recipient limit)
      (fun pulled _ => ∃ env ∈ pulled.1, env.messageId = row.envelopeId) := by
  refine (inbox_succeeds row.recipient limit).weaken (fun _ intact => intact) fun pulled _ same => ?_
  obtain ⟨env, stored, known⟩ := good.inv.deliveryKnown row member
  have short : (w.store.inboxOrder row.recipient).length ≤ limit := by
    simp only [Store.inboxOrder, List.length_insertionSort, List.length_map]
    exact Nat.le_trans (joined_length _) enough
  refine ⟨env, ?_, known⟩
  rw [same, List.take_of_length_le short]
  refine mem_inboxOrder.mpr ⟨row, member, rfl, pending, ?_⟩
  rw [← known]
  exact envelope_of_mem good.inv.envelopesOnce stored

theorem Good.deliverable (good : Good w) (member : row ∈ w.store.deliveries) :
    Deliverable w.store row := by
  constructor
  · exact good.passing.leased row member
  · exact fun pending => ⟨row.ripe, fun _ _ _ late enough => good.claimable member pending late enough⟩
  · exact fun pending _ enough => good.visible member pending enough

end Reachable

/-- In every reachable state each row is deliverable, and in every state after it the
row is still there. -/
theorem deliveries_never_stuck [Platform] (blank : Blank w) (path : service.Reaches w c) :
    (∀ row ∈ c.shared.store.deliveries, Deliverable c.shared.store row) ∧
      ∀ d, service.Leads c d → ∀ row ∈ c.shared.store.deliveries,
        HasDelivery d.shared.store row.envelopeId row.recipient := by
  have good := good_reachable blank path
  constructor
  · exact fun row member => good.deliverable member
  · intro d later row member
    exact lasting (P := fun s => HasDelivery s.store row.envelopeId row.recipient) blank path
      (fun _ _ _ step _ => step.grows.deliveries _ _) ⟨row, member, rfl, rfl⟩ later

section Sample

theorem deliveries_never_stuck_claimed : ∃ c, sampleService.Reaches blankWorld c ∧
    c.shared.store.deliveries.map (fun d => (d.state, d.leaseUntil)) =
      [(.claimed, some 1783242031)] ∧
    ∀ row ∈ c.shared.store.deliveries, Deliverable c.shared.store row := by
  let _ := Platform.sample
  have ran : (sampleService.runs (System.dormant blankWorld) (offeredPing .delivered)).map
      (fun c => decide (c.shared.store.deliveries.map (fun d => (d.state, d.leaseUntil)) =
        [(.claimed, some 1783242031)])) = some true := by
    decide +kernel
  obtain ⟨c, run, facts⟩ := Option.map_eq_some_iff.mp ran
  have path : sampleService.Reaches blankWorld c := System.leads_of_runs _ run
  exact ⟨c, path, of_decide_eq_true facts, (deliveries_never_stuck blankWorld_blank path).1⟩

end Sample
end Crewd.Bus
