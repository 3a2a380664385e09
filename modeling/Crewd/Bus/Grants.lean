import Crewd.Bus.Walks

/-! Protected cells are reached by grant only. A message is enqueued by a section whose
call has checked the ACL before, whichever of the four tools it came through; with an
ACL that stays the same, what was checked then is what the delivery rows show now. -/
namespace Crewd.Bus
open Autocommit Concurrent

/-- The grant by which a message came to a protected recipient: one of the sender's
per-target grants, or the ask that the recipient itself sent. -/
def ReachedByGrant (sender : CellAcl) (st : Store) (env : Envelope) (recipient : String) : Prop :=
  match env.kind with
  | .send => .send ∈ sender.capabilities ∧ recipient ∈ sender.sendToProtected
  | .broadcast => .broadcast ∈ sender.capabilities ∧ recipient ∈ sender.sendToProtected
  | .ask => .ask ∈ sender.capabilities ∧ recipient ∈ sender.askProtected
  | .reply => .reply ∈ sender.capabilities ∧ ∃ ask ∈ st.asks, env.askId = some ask.askId ∧
    ask.fromCell = recipient ∧ ask.toCell = env.fromCell
  | .notice => False

section Decisions
variable {acl : Acl} {caller recipient : String} {cap : Capability} {target : CellAcl}

theorem capable_of_check (passed : acl.check caller cap = .ok ()) :
    ∃ sender, acl.get caller = some sender ∧ cap ∈ sender.capabilities := by
  unfold Acl.check at passed
  split at passed
  · next sender registered =>
    split at passed
    · next capable => exact ⟨sender, registered, capable⟩
    · cases passed
  · cases passed

theorem granted_of_reach {via : ReachVia} {sender : CellAcl}
    (passed : acl.checkReach caller recipient via = .ok ()) (registered : acl.get caller = some sender)
    (known : acl.get recipient = some target) (isProtected : target.isProtected = true) :
    recipient ∈ match via with
      | .send => sender.sendToProtected
      | .ask => sender.askProtected := by
  simp only [Acl.checkReach, registered, known, Option.map_some, Option.getD_some, isProtected,
    Bool.not_true, Bool.false_eq_true, if_false] at passed
  cases via with
  | send =>
    by_contra missing
    simp [missing] at passed
  | ask =>
    by_contra missing
    simp [missing] at passed

/-- A fan-out leaves out the protected cells without a grant. -/
theorem granted_of_recipient {sender : CellAcl} (registered : acl.get caller = some sender)
    (included : recipient ∈ (acl.recipientsForBroadcast caller).1)
    (known : acl.get recipient = some target) (isProtected : target.isProtected = true) :
    recipient ∈ sender.sendToProtected := by
  rw [Acl.recipientsForBroadcast_of_registered registered] at included
  obtain ⟨⟨name, cell⟩, kept, rfl⟩ := List.mem_map.mp included
  obtain ⟨peer, granted⟩ := List.mem_filter.mp kept
  have same := Acl.get_eq_some_iff.mpr (List.mem_filter.mp peer).1
  cases known.symm.trans same
  simpa [isProtected] using granted

end Decisions

section Runs
variable [Platform] {acl : Acl}

/-- Whenever the daemon starts, it loads this ACL. -/
def Loads (acl : Acl) (_ : BusTracked) : Move (Input Outside) Request Event → Prop
  | .crash i => ∀ start ∈ i.outside.start, start.acl = acl
  | _ => True

omit [Platform] in
theorem Granted.later {request : Request} {visits visits' : BusVisits}
    (later : ∀ v ∈ visits, v ∈ visits') (granted : Granted request visits env recipient) :
    Granted request visits' env recipient := by
  have checked : ∀ {caller cap more}, Checked visits caller cap more → Checked visits' caller cap more := by
    rintro caller cap more ⟨v, inside, found⟩
    exact ⟨v, later v inside, found⟩
  cases request with
  | send caller params => exact ⟨granted.1, granted.2.1, checked granted.2.2⟩
  | ask caller params => exact ⟨granted.1, granted.2.1, checked granted.2.2⟩
  | broadcast caller params => exact ⟨granted.1, granted.2.1, checked granted.2.2⟩
  | reply caller params =>
    obtain ⟨kind, sender, capable, v, inside, ask⟩ := granted
    exact ⟨kind, sender, checked capable, v, later v inside, ask⟩
  | _ => exact granted

/-- All sections have run under the ACL, and every message was granted in its call. -/
structure Guarded (acl : Acl) (t : BusTracked) : Prop where
  loaded : t.config.up = true → t.config.shared.memory.acl = acl
  seen : ∀ k, ∀ v ∈ t.visits k, v.2.memory.acl = acl
  sent : ∀ entry ∈ sent t.config.shared, ∃ k request, Granted request (t.visits k) entry.1 entry.2

theorem guarded_kept : System.Kept service
    (fun _ request visits _ w w' => Effect request visits w w')
    (fun _ request => endsIn (fun _ _ => True) (Accounted request)) Aside (Loads acl) (Guarded acl) where
  called u v request holds up same _ pool visits _ := by
    refine ⟨fun _ => ?_, ?_, ?_⟩
    · rw [same]
      exact holds.loaded up
    · rw [visits]
      exact holds.seen
    · rw [same, visits]
      exact holds.sent
  ran u v task i request code code' holds _ up found _ moved _ _ pool visits := by
    have later : ∀ k, ∀ visit ∈ u.visits k, visit ∈ v.visits k := by
      intro k visit inside
      rw [visits]
      by_cases own : k = task
      · subst own
        rw [Function.update_self]
        exact List.mem_append_left _ inside
      · rwa [Function.update_of_ne own]
    refine ⟨fun _ => moved.acl.trans (holds.loaded up), ?_, ?_⟩
    · intro k visit inside
      rw [visits] at inside
      by_cases own : k = task
      · subst own
        rw [Function.update_self] at inside
        rcases List.mem_append.mp inside with before | now
        · exact holds.seen k visit before
        · obtain rfl := List.mem_singleton.mp now
          exact holds.loaded up
      · rw [Function.update_of_ne own] at inside
        exact holds.seen k visit inside
    · intro entry inside
      rcases moved.sent entry inside with before | granted
      · obtain ⟨k, request', granted⟩ := holds.sent entry before
        exact ⟨k, request', granted.later (later k)⟩
      · exact ⟨task, request, granted.later (later task)⟩
  beside u v holds up pool visits moved := by
    rcases moved with same | aside
    · refine ⟨?_, ?_, ?_⟩
      · rw [up, same]
        exact holds.loaded
      · rw [visits]
        exact holds.seen
      · rw [same, visits]
        exact holds.sent
    · refine ⟨?_, ?_, ?_⟩
      · rw [up, aside.acl]
        exact holds.loaded
      · rw [visits]
        exact holds.seen
      · rw [visits]
        exact fun entry inside => holds.sent entry ((aside.sent entry inside).resolve_right id)
  crashed u i holds fit := by
    refine ⟨fun up => ?_, holds.seen, holds.sent⟩
    obtain ⟨start, started⟩ := Option.isSome_iff_exists.mp (show i.outside.start.isSome from up)
    have loaded : (restart i u.config.shared).1.memory.acl = start.acl := by
      simp only [restart, started, Option.getD_some]
      rfl
    exact loaded.trans (fit start started)

/-- What a section has found in the tables is still there. -/
theorem visited_grows {fits : BusTracked → Move (Input Outside) Request Event → Prop}
    (blank : Blank w) (run : service.Follows fits (System.dormant w).tracked t) :
    ∀ k, ∀ v ∈ t.visits k, Grows v.2 t.config.shared := by
  induction run with
  | refl =>
    intro k v inside
    cases inside
  | @next u action v before _ tracked ih =>
    obtain ⟨stepped, visits⟩ := System.next_of_track tracked
    have grown : Grows u.config.shared v.config.shared := by
      rcases Sound.moves_next sound (holds_reachable blank before.leads) stepped with same | ⟨_, moved⟩
      · rw [same]
        exact .refl _
      · exact moved.grows
    intro k visit inside
    rw [visits] at inside
    cases action with
    | run task i =>
      by_cases own : k = task
      · subst own
        rw [Tracked.visited, Function.update_self] at inside
        rcases List.mem_append.mp inside with earlier | now
        · exact (ih k visit earlier).trans grown
        · obtain rfl := List.mem_singleton.mp now
          exact grown
      · rw [Tracked.visited, Function.update_of_ne own] at inside
        exact (ih k visit inside).trans grown
    | _ => exact (ih k visit inside).trans grown

/-- With an ACL that stays the same, each delivery row of a protected recipient was
granted to a sender that holds the capability of the tool. -/
theorem protected_reached_by_grant {t : BusTracked} {row : Delivery} {target : CellAcl}
    (blank : Blank w) (run : service.Follows (Loads acl) (System.dormant w).tracked t)
    (delivery : row ∈ t.config.shared.store.deliveries)
    (stored : env ∈ t.config.shared.store.envelopes) (same : env.messageId = row.envelopeId)
    (known : acl.get row.recipient = some target) (isProtected : target.isProtected = true) :
    ∃ sender, acl.get env.fromCell = some sender ∧
      ReachedByGrant sender t.config.shared.store env row.recipient := by
  have guarded : Guarded acl t := by
    refine kept_run guarded_kept ⟨fun up => (by cases up), fun _ _ inside => (by cases inside), ?_⟩ run
    intro entry inside
    rw [Bus.sent, System.dormant, Config.tracked, blank.history] at inside
    cases inside
  have good := good_reachable blank run.leads
  obtain ⟨env', enqueued, id⟩ := good.passing.enqueued_of_row delivery
  obtain rfl : env' = env := List.inj_on_of_nodup_map good.inv.envelopesOnce
    (good.passing.stored _ enqueued) stored (id.trans same.symm)
  obtain ⟨k, request, granted⟩ := guarded.sent _ enqueued
  cases request with
  | send caller params =>
    obtain ⟨kind, rfl, v, inside, capable, reached⟩ := granted
    rw [guarded.seen k v inside] at capable reached
    obtain ⟨sender, registered, held⟩ := capable_of_check capable
    refine ⟨sender, registered, ?_⟩
    rw [ReachedByGrant, kind]
    exact ⟨held, granted_of_reach reached registered known isProtected⟩
  | ask caller params =>
    obtain ⟨kind, rfl, v, inside, capable, reached⟩ := granted
    rw [guarded.seen k v inside] at capable reached
    obtain ⟨sender, registered, held⟩ := capable_of_check capable
    refine ⟨sender, registered, ?_⟩
    rw [ReachedByGrant, kind]
    exact ⟨held, granted_of_reach reached registered known isProtected⟩
  | broadcast caller params =>
    obtain ⟨kind, rfl, v, inside, capable, included⟩ := granted
    rw [guarded.seen k v inside] at capable included
    obtain ⟨sender, registered, held⟩ := capable_of_check capable
    refine ⟨sender, registered, ?_⟩
    rw [ReachedByGrant, kind]
    exact ⟨held, granted_of_recipient registered included known isProtected⟩
  | reply caller params =>
    obtain ⟨kind, rfl, ⟨v, inside, capable, -⟩, v', inside', ask, asked, correlated, asker, asks⟩ :=
      granted
    rw [guarded.seen k v inside] at capable
    obtain ⟨sender, registered, held⟩ := capable_of_check capable
    obtain ⟨ask', asked', id', -, asker', asks', -⟩ :=
      (visited_grows blank run k v' inside').asks ask asked
    refine ⟨sender, registered, ?_⟩
    rw [ReachedByGrant, kind]
    exact ⟨held, ask', asked', by rw [correlated, id'], asker'.trans asker, asks'.trans asks⟩
  | await caller params => exact granted.elim
  | inbox caller params => exact granted.elim
  | reportToolCorrelation caller params => exact granted.elim
  | opStatus caller keys => exact granted.elim

end Runs
section Sample

/-- A protected vault, which the reviewer may not reach on its own account. -/
def vaultAcl : Acl where
  cells := [("reviewer", sampleCell), ("vault", { sampleCell with isProtected := true })]
  sorted := by decide

instance (acl : Acl) (t : BusTracked) (action : Move (Input Outside) Request Event) :
    Decidable (Loads acl t action) :=
  match action with
  | .crash _ => inferInstanceAs (Decidable (∀ start ∈ _, _))
  | .call _ | .run _ _ | .main _ | .event _ => .isTrue trivial

/-- The vault asks the reviewer, and gets a reply. -/
def vaultAnswered : List (Move (Input Outside) Request Event) :=
  startWith { sampleStart with acl := vaultAcl } ::
    .call (.ask "vault" ⟨["to", "body"], .ok ⟨"reviewer", "ping", [], none, none⟩⟩) ::
    sections 0 9 1783242000 ++
    .call (.reply "reviewer" ⟨["ask_id", "body"],
      .ok ⟨"0197d8a0-0000-7000-8000-000000000001", "pong", [], none⟩⟩) :: sections 1 4 1783242060

theorem vault_reached_by_reply : ∃ (t : BusTracked) (row : Delivery) (env : Envelope),
    sampleService.Follows (Loads vaultAcl) (System.dormant blankWorld).tracked t ∧
    row ∈ t.config.shared.store.deliveries ∧ env.messageId = row.envelopeId ∧
    row.recipient = "vault" ∧ env.kind = .reply ∧ ∃ sender, vaultAcl.get env.fromCell = some sender ∧
      ReachedByGrant sender t.config.shared.store env row.recipient := by
  let _ := Platform.sample
  have ran : (sampleService.tracks (System.dormant blankWorld).tracked vaultAnswered).map (fun t =>
      decide (∃ row ∈ t.config.shared.store.deliveries, ∃ env ∈ t.config.shared.store.envelopes,
        env.messageId = row.envelopeId ∧ row.recipient = "vault" ∧ env.kind = .reply)) =
      some true := by decide +kernel
  have fitting : System.decideFits (Loads vaultAcl) sampleService (System.dormant blankWorld).tracked
      vaultAnswered = true := by decide +kernel
  obtain ⟨t, run, facts⟩ := Option.map_eq_some_iff.mp ran
  obtain ⟨row, delivery, env, stored, same, address, kind⟩ := of_decide_eq_true facts
  have known : vaultAcl.get row.recipient = some { sampleCell with isProtected := true } := by
    rw [address]
    decide
  have follows := System.follows_of_tracks run fitting
  exact ⟨t, row, env, follows, delivery, same, address, kind,
    protected_reached_by_grant blankWorld_blank follows delivery stored same known rfl⟩

end Sample
end Crewd.Bus
