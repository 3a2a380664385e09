import Crewd.Bus.Writes

/-! The handlers section by section: which of their sections charge a window, open an
ask or enqueue a message, and what was checked before. The delivery loop does none of
these. -/
namespace Crewd.Bus
open Autocommit Concurrent

variable [Platform] {request : Request} {visits : BusVisits} {α β : Type}

section Charges
variable {axis axis' : Axis} {c c' : Charge}

omit [Platform] in
/-- The charges of a request share the reading of the clock; the sender's comes first. -/
theorem charge_shape (charged : request.charge axis = some c)
    (charged' : request.charge axis' = some c') :
    c.caller = c'.caller ∧ c.clock = c'.clock ∧ (c.later = c'.later → axis = axis') ∧
      c.later ≤ 1 ∧ (axis = .sender ↔ c.later = 0) := by
  have listed := Table.mem_of_lookup charged
  have listed' := Table.mem_of_lookup charged'
  unfold Request.charges at listed listed'
  split at listed <;>
    simp only [List.mem_cons, List.not_mem_nil, or_false, Prod.mk.injEq] at listed listed'
  · obtain ⟨rfl, rfl⟩ := listed
    obtain ⟨rfl, rfl⟩ := listed'
    simp
  · rcases listed with ⟨rfl, rfl⟩ | ⟨rfl, rfl⟩ <;> rcases listed' with ⟨rfl, rfl⟩ | ⟨rfl, rfl⟩ <;> simp
  · rcases listed with ⟨rfl, rfl⟩ | ⟨rfl, rfl⟩ <;> rcases listed' with ⟨rfl, rfl⟩ | ⟨rfl, rfl⟩ <;> simp

omit [Platform] in
theorem charge_place (charged : request.charge axis = some c)
    (charged' : request.charge .sender = some c') : c'.place ≤ c.place ∧ c.place ≤ c'.place + 1 := by
  obtain ⟨-, clock, -, later, -⟩ := charge_shape charged charged'
  obtain ⟨-, -, -, -, first⟩ := charge_shape charged' charged
  have none := first.mp rfl
  unfold Charge.place
  omega

omit [Platform] in
theorem spared_ahead (charged : request.charge .sender = some c)
    (ahead : visits.length + n ≤ c.place) : request.Spared visits n :=
  Request.spared_before fun _ _ charged' => Nat.le_trans ahead (charge_place charged' charged).1

omit [Platform] in
theorem spared_over (charged : request.charge .sender = some c)
    (passed : c.place + 1 < visits.length) : request.Spared visits n :=
  Request.spared_past fun _ _ charged' => Nat.lt_of_le_of_lt (charge_place charged' charged).2 passed

omit [Platform] in
theorem charge_alone (charged : request.charge axis = some c) (other : Axis) (c' : Charge)
    (charged' : request.charge other = some c') (same : c'.place = c.place) : other = axis := by
  obtain ⟨-, clock, apart, -⟩ := charge_shape charged' charged
  apply apart
  unfold Charge.place at same
  omega

theorem senderCharge_does {addressee : Option String} {now units : Nat}
    (charged : request.charge .sender = some c) (here : visits.length = c.place)
    (clock : now = reading visits c.clock) (many : units = c.units visits) :
    Does request visits (enforceQuota c.caller addressee (·.noteAndCheckSender c.caller now units))
      (Onwards visits 1 fun more _ => c.fits .sender (visits ++ more) = true) := by
  apply charge_does charged here rfl (charge_alone charged) clock many
  · exact fun _ _ _ => QuotaTracker.window_noteAndCheckSender
  · exact fun q => q.noteAndCheckSender_config _ _ _
  · exact fun _ => QuotaTracker.noteAndCheckSender_ok_iff
  · intro v full axis' c' charged' here'
    cases axis' with
    | sender =>
      obtain rfl := Option.some.inj (charged.symm.trans charged')
      rw [List.length_append, here] at here'
      simp at here'
    | capability cap =>
      rw [Request.admits, charged]
      exact full

theorem capabilityCharge_does {cap : Capability} {addressee : Option String} {now : Nat}
    (charged : request.charge (.capability cap) = some c) (here : visits.length = c.place)
    (admitted : request.admits visits (.capability cap) = true)
    (limited : ∀ q : QuotaTracker, ∃ ceiling, q.capabilityCeiling cap = some ceiling)
    (clock : now = reading visits c.clock) (single : c.fanout = false) :
    Does request visits (enforceQuota c.caller addressee (·.noteAndCheckCapability c.caller cap now))
      (Onwards visits 1 fun more _ => c.fits (.capability cap) (visits ++ more) = true) := by
  have many : 1 = c.units visits := by simp [Charge.units, single]
  apply charge_does charged here admitted (charge_alone charged) clock many
  · intro q other cell
    obtain ⟨ceiling, limit⟩ := limited q
    exact QuotaTracker.window_noteAndCheckCapability limit
  · exact fun q => q.noteAndCheckCapability_config _ _ _
  · intro q
    obtain ⟨ceiling, limit⟩ := limited q
    exact QuotaTracker.noteAndCheckCapability_ok_iff limit
  · intro v _
    refine (Request.spared_past (n := 1) fun axis' c' charged' => ?_).off
    obtain ⟨-, clock', -, later, -⟩ := charge_shape charged' charged
    obtain ⟨-, -, -, -, first⟩ := charge_shape charged charged
    have last : c.later ≠ 0 := fun zero => by cases first.mpr zero
    rw [List.length_append, here]
    unfold Charge.place
    simp only [List.length_cons, List.length_nil]
    omega

end Charges

section Admission
variable {c : Charge} {target : String} {cap : Capability} {found : BusVisits → Prop}

/-- The first section counts the queue, and the second lets the count pass. -/
def Queues (target : String) (more : BusVisits) : Prop :=
  ∃ counted checked rest, more = counted :: checked :: rest ∧
    checked.2.memory.quota.checkQueueDepth (counted.2.store.pendingFor target) = .ok ()

omit [Platform] in
theorem Queues.admitted (queues : Queues target more) (request : Request) (visits later : BusVisits)
    (place : request.counting = some visits.length) :
    request.Admitted (visits ++ more ++ later) target := by
  obtain ⟨counted, checked, rest, rfl, passed⟩ := queues
  intro other counting
  obtain rfl := Option.some.inj (place.symm.trans counting)
  exact ⟨counted, checked, by simp, by simp, passed⟩

/-- Of the admission of a message to one cell, only the charge of its capability is left
open here. -/
theorem admitOutbound_does (found : BusVisits → Prop) (charged : request.charge .sender = some c)
    (single : c.fanout = false)
    (here : visits.length + 2 = c.clock)
    (last : ∀ visits' now, visits'.length = c.place + 1 → now = reading visits' c.clock →
      c.fits .sender visits' = true → Does request visits'
        (enforceQuota c.caller (some target) (·.noteAndCheckCapability c.caller cap now))
        (Onwards visits' 1 fun more _ => found (visits' ++ more))) :
    Does request visits (admitOutbound c.caller target cap 1)
      (Onwards visits 5 fun more _ => c.fits .sender (visits ++ more) = true ∧
        found (visits ++ more) ∧ Queues target more) := by
  have soon : c.later = 0 := by
    obtain ⟨-, -, -, -, first⟩ := charge_shape charged charged
    exact first.mp rfl
  have place : c.place = visits.length + 3 := by
    unfold Charge.place
    omega
  have spared : ∀ {visits' : BusVisits}, visits'.length ≤ visits.length + 2 →
      request.Spared visits' 1 := fun less => spared_ahead charged (by omega)
  refine (pendingDeliveriesCount_does (spared (by omega)).off).bind ?_
  rintro first pending - ⟨v₁, rfl, rfl⟩
  have ahead : request.Spared (visits ++ [v₁]) 2 :=
    spared_ahead charged (by simp only [List.length_append, List.length_singleton]; omega)
  refine (enforceQuota_does ahead fun _ => rfl).bind ?_
  rintro second _ - ⟨v₂, rfl, passed⟩
  refine (nowMs_does (spared (by simp)).off).bind ?_
  rintro third now - ⟨v₃, rfl, rfl⟩
  have clocked : clockOf v₃ = reading (visits ++ [v₁] ++ [v₂] ++ [v₃]) c.clock := by
    have position : c.clock = (visits ++ [v₁] ++ [v₂]).length := by simp [here]
    rw [position, reading_last]
  have arrived : (visits ++ [v₁] ++ [v₂] ++ [v₃]).length = c.place := by simp [place]
  have one : 1 = c.units (visits ++ [v₁] ++ [v₂] ++ [v₃]) := by simp [Charge.units, single]
  refine (senderCharge_does charged arrived clocked one).bind ?_
  intro fourth _ length fits
  have clocked' : clockOf v₃ = reading (visits ++ [v₁] ++ [v₂] ++ [v₃] ++ fourth) c.clock := by
    rw [reading_append (by rw [arrived]; exact c.clock_lt_place)]
    exact clocked
  have beyond : (visits ++ [v₁] ++ [v₂] ++ [v₃] ++ fourth).length = c.place + 1 := by
    rw [List.length_append, arrived, length]
  refine Goes.weaken ?_ (last _ _ beyond clocked' fits)
  rintro visits' _ ⟨more, rfl, length', known⟩
  refine ⟨[v₁, v₂, v₃] ++ fourth ++ more, by simp, by simp [length, length'], ?_⟩
  have same : visits ++ ([v₁, v₂, v₃] ++ fourth ++ more) =
      visits ++ [v₁] ++ [v₂] ++ [v₃] ++ fourth ++ more := by simp
  dsimp only
  rw [same, Charge.fits_append (by omega)]
  exact ⟨fits, known, v₁, v₂, _, rfl, passed⟩

end Admission

section Apart

/-- A part whose sections do nothing of the kind. -/
def Apart (h : Handler α) : Prop :=
  ∀ visits, Goes (fun _ _ w w' => Aside w w') (fun _ _ => True) visits h fun _ _ => True

namespace Apart
variable {h : Handler α} {f : α → Handler β}

theorem does (apart : Apart h) (free : ∀ axis, request.charge axis = none) :
    Does request visits h fun _ _ => True :=
  Process.Along.weaken (fun _ _ _ _ aside => aside.effect_aside
    (Request.spared_free (n := 1) free).off) (fun _ _ ended => ended) (apart visits)

omit [Platform]

theorem bind (first : Apart h) (rest : ∀ a, Apart (f a)) : Apart (h >>= f) :=
  fun visits => Goes.bind (first visits) fun visits' a _ => rest a visits'

theorem pure {a : α} : Apart (Pure.pure a : Handler α) := fun _ => Goes.pure trivial

theorem throw {e : BusError} : Apart (MonadExcept.throw e : Handler α) := fun _ => Goes.throw trivial

theorem raise {r : Except BusError α} : Apart (Crewd.raise r : Handler α) :=
  fun _ => Goes.raise (fun _ _ => trivial) fun _ _ => trivial

theorem locked {m : Act α} (spares : Spares m) : Apart (Crewd.locked m) := by
  intro visits
  apply Goes.locked
  · exact fun i w => (Confined.ofQuiet _ _ (w.quiet_install i)).trans (spares.exec _)
  · exact fun _ _ _ _ => trivial
  · exact fun _ _ _ _ => trivial

theorem forM {xs : List β} {f : β → Handler PUnit} (each : ∀ x, Apart (f x)) : Apart (xs.forM f) := by
  induction xs with
  | nil => exact pure
  | cons x xs ih => exact bind (each x) fun _ => ih

theorem refuse {kind caller outcome : String} {addressee : Option String} {e : BusError} :
    Apart (Crewd.Bus.refuse kind caller addressee outcome e : Handler α) :=
  bind (locked (.audit _ _ _ _ _ _)) fun _ => throw

theorem checkCapability (caller : String) (cap : Capability) :
    Apart (Crewd.Bus.checkCapability caller cap) :=
  .bind (.locked (.silent (.readMemory _))) fun _ => .raise

theorem answered (task : Nat) (ask : AskRow) : Apart (Crewd.Bus.answered task ask) := by
  unfold Crewd.Bus.answered
  split
  · exact .pure
  · refine .locked (Abides.bind (noteFetch_keeps _ _) fun _ => ?_)
    refine Abides.bind (Abides.outcome (.query _)) fun r => ?_
    split <;> exact .pure _

theorem guarded {guard : AwaitGuard} {body : Handler α} (apart : Apart body) :
    Apart (Crewd.Bus.guarded guard body) := by
  intro visits
  have released : Apart (Crewd.locked (releaseAwait guard)) :=
    .locked (.writeMemory (fun _ => rfl) fun _ => rfl)
  refine Process.Along.bind (p := body.run) (apart visits) fun visits' r _ => ?_
  refine Process.Along.bind (p := (Crewd.locked (releaseAwait guard)).run) (released visits')
    fun _ _ _ => ?_
  cases r <;> exact trivial

theorem awaitNotified (task : Nat) (askId : String) :
    Apart (Crewd.Bus.awaitNotified task askId) := by
  refine .bind (.locked (pollWaker_keeps task askId)) fun woken => ?_
  split
  · exact .pure
  · intro visits
    have polled : (Process.waiting (fun (i : Input Outside) (w : World) => i.outside.deadline ||
        (w.memory.wakerOrNew askId).notified.contains task) fun i w =>
        pollWakerAgain task askId (w.install i)).Along (fun _ _ w w' => Aside w w') (fun _ _ => True)
        visits := by
      refine Process.Along.waiting (fun i w _ => ?_) fun _ _ _ => trivial
      exact (Confined.ofQuiet _ _ (w.quiet_install i)).trans (pollWakerAgain_confined task askId _)
    exact polled.bind fun _ _ _ => trivial

theorem waitForReply (task : Nat) (ask : AskRow) : Apart (Crewd.Bus.waitForReply task ask) := by
  refine .bind (.locked (registerWaker_keeps _ _)) fun _ => .bind (awaitNotified _ _) fun woken => ?_
  refine .bind (.locked (readAgain_keeps _ _)) fun ask2 => ?_
  split
  · split
    · exact answered _ _
    · exact .pure
    · exact .pure
  · exact .pure

end Apart

omit [Platform]

theorem handleAwait_apart (task : Nat) (caller : String) (params : Params AwaitParams) :
    Apart (handleAwait task caller params) := by
  refine .bind .raise fun _ => .bind .raise fun p => ?_
  refine .bind (.locked (firstRead_keeps _ _)) fun ask => ?_
  split
  · exact .throw
  split
  · exact .answered _ _
  · exact .pure
  · refine .bind (.locked (.writeMemory (fun _ => rfl) fun _ => rfl)) fun r => ?_
    cases r with
    | error e => exact .refuse
    | ok guard => exact .guarded (.waitForReply _ _)

theorem handleInbox_apart (caller : String) (params : Params InboxParams) :
    Apart (handleInbox caller params) := by
  refine .bind .raise fun _ => .bind .raise fun p => .bind (.checkCapability _ _) fun _ => ?_
  exact .bind (.locked (inbox_keeps _ _)) fun _ => .pure

theorem handleReportToolCorrelation_apart (caller : String)
    (params : Params ReportCorrelationParams) : Apart (handleReportToolCorrelation caller params) := by
  refine .bind .raise fun _ => .bind .raise fun p => ?_
  refine .bind (.locked (.silent (hasConsumed_silent _ _))) fun consumed => ?_
  split
  · refine .bind (.locked (.query _)) fun env => ?_
    cases env with
    | none => exact .throw
    | some env => exact .bind (.locked (.audit _ _ _ _ _ _)) fun _ => .pure
  · exact .throw

theorem handleOpStatus_apart (caller : String) (keys : List String) :
    Apart (handleOpStatus caller keys) := by
  refine .bind .raise fun _ => .bind (.checkCapability _ _) fun _ => .bind (.locked ?_) fun _ => .pure
  exact (Abides.query _).bind fun _ => (Abides.query _).bind fun _ => .pure _

theorem bestEffort_apart (kind : String) (messageId toCell : Option String) (outcome : String)
    (detail : Option Json) : Apart (bestEffort kind messageId toCell outcome detail) :=
  .locked (.ignore (.audit _ _ _ _ _ _))

theorem announce_apart (kind messageId recipient outcome : String) :
    Apart (announce kind messageId recipient outcome) := by
  refine .locked (Abides.bind (Abides.outcome (.audit _ _ _ _ _ _)) fun r => ?_)
  cases r with
  | ok _ => exact .note fun _ => rfl
  | error e => exact .pure _

theorem deliver_apart (adapters : List String) (claimed : Envelope × String) :
    Apart (deliver adapters claimed) := by
  refine .bind ?_ fun outcome => ?_
  · unfold deliverWithTimeout
    split
    · exact .locked ((Abides.note fun _ => rfl).bind fun _ => .silent (.readOutside _))
    · exact .pure
  · unfold applyOutcome
    cases outcome with
    | delivered => exact .bind (.locked (applyTransition_keeps _ _ _)) fun _ => announce_apart _ _ _ _
    | acked => exact .bind (.locked (applyTransition_keeps _ _ _)) fun _ => announce_apart _ _ _ _
    | permanentFailure =>
      exact .bind (.locked (applyTransition_keeps _ _ _)) fun _ => announce_apart _ _ _ _
    | transientFailure =>
      refine .bind (.locked (applyFailure_keeps _ _)) fun r => ?_
      split
      · exact announce_apart _ _ _ _
      · exact .pure
    | notReady => exact .locked (noteOutcome_keeps _ _ _)

theorem tick_apart : Apart tick := by
  refine .bind (.locked (.silent ?_)) fun ⟨nowRfc, nowUnix⟩ => ?_
  · exact Silent.bind .nowRfc3339 fun _ => Silent.bind .nowUnix fun _ => .pure _
  refine .bind (.locked (expireAsksDue_keeps _)) fun expiredAsks => .bind (.forM fun askId => ?_) fun _ => ?_
  · exact .bind (bestEffort_apart _ _ _ _ _) fun _ => .locked (.notifyAsker _)
  refine .bind (.locked (expireDue_keeps _)) fun expired => .bind (.forM fun entry => ?_) fun _ => ?_
  · exact bestEffort_apart _ _ _ _ _
  refine .bind (.locked ?_) fun claimed => .bind (.locked (.silent (.readMemory _))) fun adapters => ?_
  · exact Abides.bind (.silent (.readMemory _)) fun cfg => claimDue_keeps _ _ _
  · exact .forM fun entry => deliver_apart _ _

end Apart

section Submitting

omit [Platform] in
/-- When the charges are over and had room, an answer is accounted for. -/
theorem accounted {c : Charge} {answer : Answer} {more : BusVisits}
    (charged : request.charge .sender = some c) (passed : c.place + 1 < visits.length)
    (fitted : ∀ axis c, request.charge axis = some c → c.fits axis visits = true)
    (written : request.writing = some visits.length) (one : more.length = 1)
    (fanned : c.fanout = true → ∀ messageId recipients, answer = .fannedOut messageId recipients →
      recipients.length ≤ c.units visits) :
    Accounted request (visits ++ more) answer := by
  have place : ∀ axis c', request.charge axis = some c' → c'.place < visits.length :=
    fun axis c' charged' => Nat.lt_of_le_of_lt (charge_place charged' charged).2 passed
  have fits : ∀ axis c', request.charge axis = some c' → c'.fits axis (visits ++ more) = true := by
    intro axis c' charged'
    rw [Charge.fits_append (place axis c' charged')]
    exact fitted axis c' charged'
  refine ⟨fun axis c' charged' => ⟨fits axis c' charged', ?_⟩, ?_, ?_⟩
  · cases axis with
    | sender => rfl
    | capability cap =>
      rw [Request.admits, charged]
      exact fits .sender c charged
  · intro place written'
    obtain rfl := Option.some.inj (written.symm.trans written')
    rw [List.length_append, one]
    exact Nat.lt_succ_self _
  · intro messageId recipients c' charged' fanout same
    obtain rfl := Option.some.inj (charged.symm.trans charged')
    have before := c.clock_lt_place
    rw [c.units_append (by omega)]
    exact fanned fanout messageId recipients same

omit [Platform] in
/-- Every envelope but a reply is valid by what it carries. -/
theorem authored_of_carries {caller body : String} {kind : Kind} {toCell : Option String}
    (own : request.author = caller) (addressed : kind = .broadcast ↔ toCell = none) (other : kind ≠ .reply)
    (bounded : checkBody body = .ok ()) (env : Envelope)
    (carries : Carries caller kind toCell body env) : Authored request visits env where
  author := carries.fromCell.trans own.symm
  valid := carries.valid addressed bounded fun reply => absurd reply other
  refers reply := absurd (carries.kind.symm.trans reply) other

section Submissions
variable {caller : String} {keys : List String}

theorem submitSend_does {p : SendParams} (bounded : checkBody p.body = .ok ())
    (off : (Request.send caller ⟨keys, .ok p⟩).Off visits)
    (checked : Checked visits caller .send fun acl => acl.checkReach caller p.toCell .send = .ok ())
    (written : (Request.send caller ⟨keys, .ok p⟩).writing = some visits.length)
    (admitted : (Request.send caller ⟨keys, .ok p⟩).Admitted visits p.toCell) :
    Does (.send caller ⟨keys, .ok p⟩) visits (locked (submitSend caller p))
      (Onwards visits 1 (Seen fun _ _ => True)) := by
  refine Does.admitted (Carries caller .send (some p.toCell) p.body)
    (fun env r => env.kind = .send ∧ env.fromCell = caller ∧ r = p.toCell) (fun _ _ => True)
    (submitSend_keeps (fun _ carries => carries) fun env kind sender => ⟨kind, sender, rfl⟩) off
    (authored_of_carries rfl (by simp) (by simp) bounded) ?_ (fun i w r => ?_) fun _ _ _ _ => trivial
  · rintro env _ ⟨kind, sender, rfl⟩
    exact ⟨kind, sender, checked⟩
  · refine (submitSend_adds caller p (w.install i) r).imp_right fun ⟨fresh, target, more⟩ => ?_
    obtain rfl := List.mem_singleton.mp target
    exact ⟨more, written, fresh, target, admitted⟩

/-- The cap that let the count of pending asks pass was read in the section before. -/
theorem submitAsk_does {p : AskParams} {counted last : Input Outside × World}
    (bounded : checkBody p.body = .ok ()) (off : (Request.ask caller ⟨keys, .ok p⟩).Off visits)
    (checked : Checked visits caller .ask fun acl => acl.checkReach caller p.toCell .ask = .ok ())
    (arrived : visits.length = p.insertion)
    (admitted : (Request.ask caller ⟨keys, .ok p⟩).Admitted visits p.toCell)
    (counts : visits[p.insertion - 2]? = some counted) (caps : visits[p.insertion - 1]? = some last)
    (room : counted.2.store.pendingAsks caller < last.2.memory.quota.config.pendingAskCap) :
    Does (.ask caller ⟨keys, .ok p⟩) visits (locked (submitAsk caller p))
      (Onwards visits 1 (Seen fun _ _ => True)) := by
  refine Goes.locked (fun i w => ?_) (fun i w answer _ => ?_) fun _ _ _ _ => trivial
  · have opens := submitAsk_opens caller p (Carries caller .ask (some p.toCell) p.body)
      (fun env r => env.kind = .ask ∧ env.fromCell = caller ∧ r = p.toCell) (w.install i)
      (fun _ carries => carries) fun env kind sender => ⟨kind, sender, rfl⟩
    have authors : ∀ env, Carries caller .ask (some p.toCell) p.body env →
        Authored (.ask caller ⟨keys, .ok p⟩) visits env :=
      authored_of_carries rfl (by simp) (by simp) bounded
    have grants : ∀ (env : Envelope) r, env.kind = .ask ∧ env.fromCell = caller ∧ r = p.toCell →
        Granted (.ask caller ⟨keys, .ok p⟩) visits env r := by
      rintro env _ ⟨kind, sender, rfl⟩
      exact ⟨kind, sender, checked⟩
    have adds : ∀ r, sentTo r ((submitAsk caller p).exec (w.install i)).2 ≤ sentTo r w ∨
        Adds (.ask caller ⟨keys, .ok p⟩) visits w ((submitAsk caller p).exec (w.install i)).2 r := by
      intro r
      refine (submitAsk_adds caller p (w.install i) r).imp_right fun ⟨fresh, target, more⟩ => ?_
      obtain rfl := List.mem_singleton.mp target
      exact ⟨more, congrArg some arrived.symm, fresh, target, admitted⟩
    rcases opens with still | ⟨unbound, more⟩
    · exact ((Confined.ofQuiet _ _ (w.quiet_install i)).trans still).effect off authors grants adds
    · refine ((Confined.ofQuiet _ _ (w.quiet_install i)).trans more).effect_of off authors grants
        (.inr ?_) adds
      refine ⟨caller, keys, p, counted, last, rfl, arrived, unbound, counts, caps, room, ?_, ?_⟩
      · have within := more.asks caller
        rw [if_pos rfl] at within
        exact Nat.le_trans within (Nat.max_le.mpr ⟨Nat.le_succ _, Nat.le_refl _⟩)
      · intro cell other
        have within := more.asks cell
        rwa [if_neg other, Nat.max_zero] at within
  · exact ⟨[(i, w)], rfl, rfl, (i, w), rfl, trivial⟩

theorem submitBroadcast_does {p : BroadcastParams} {included denied : List String}
    (bounded : checkBody p.body = .ok ())
    (off : (Request.broadcast caller ⟨keys, .ok p⟩).Off visits)
    (checked : Checked visits caller .broadcast fun acl =>
      (acl.recipientsForBroadcast caller).1 = included)
    (written : (Request.broadcast caller ⟨keys, .ok p⟩).writing = some visits.length) :
    Does (.broadcast caller ⟨keys, .ok p⟩) visits (locked (submitBroadcast caller p included denied))
      (Onwards visits 1 (Seen fun _ answer => ∃ messageId, answer = .fannedOut messageId included)) := by
  obtain ⟨v, member, capable, recipients⟩ := checked
  have once : included.Nodup := recipients ▸ v.2.memory.acl.recipientsForBroadcast_nodup caller
  have reached : ∀ r ∈ included, r ∈ (v.2.memory.acl.recipientsForBroadcast caller).1 :=
    fun r inside => by rwa [recipients]
  refine Does.admitted (Carries caller .broadcast none p.body)
    (fun env r => env.kind = .broadcast ∧ env.fromCell = caller ∧ r ∈ included)
    (fun _ answer => ∃ messageId, answer = .fannedOut messageId included)
    (submitBroadcast_keeps (fun _ carries => carries)
      fun env r inside kind sender => ⟨kind, sender, inside⟩) off
    (authored_of_carries rfl (by simp) (by simp) bounded) ?_ (fun i w r => ?_)
    fun _ _ _ ran => submitBroadcast_answers ran
  · rintro env r ⟨kind, sender, inside⟩
    exact ⟨kind, sender, v, member, capable, reached r inside⟩
  · rcases submitBroadcast_adds caller p denied once (w.install i) r with fewer | added
    · exact .inl fewer
    · obtain ⟨fresh, target, more⟩ := added
      have targeted : r ∈ (Request.broadcast caller ⟨keys, .ok p⟩).targets visits :=
        List.mem_flatMap.mpr ⟨v, member, reached r target⟩
      exact .inr ⟨more, written, fresh, targeted, fun _ counts => by cases counts⟩

theorem findAsk_does {askId : String} (off : request.Off visits) :
    Does request visits (locked (findAsk askId)) (Onwards visits 1 (Seen fun v ask =>
      ∃ row ∈ v.2.store.asks, row.askId = askId ∧ row.toAskRow = ask)) := by
  refine .locked (findAsk_keeps _) off fun i w ask ran => ?_
  simp only [findAsk, Action.exec_bind] at ran
  split at ran
  · next row w' looked =>
    have read := query_reads (congrArg Prod.fst looked)
    cases row with
    | none => cases ran
    | some row =>
      obtain ⟨stored, known, same⟩ := Option.map_eq_some_iff.mp read.symm
      obtain ⟨member, id⟩ := ask_of_find known
      obtain rfl := Except.ok.inj ran
      exact ⟨stored, member, id, same⟩
  · cases ran

/-- The ask was read before, and the caller is the cell that was asked. -/
theorem submitReply_does {p : ReplyParams} {row : Ask} {v : Input Outside × World}
    (bounded : checkBody p.body = .ok ()) (off : (Request.reply caller ⟨keys, .ok p⟩).Off visits)
    (checked : Checked visits caller .reply fun _ => True) (member : v ∈ visits)
    (stored : row ∈ v.2.store.asks) (same : row.askId = p.askId) (responder : row.toCell = caller)
    (written : (Request.reply caller ⟨keys, .ok p⟩).writing = some visits.length) :
    Does (.reply caller ⟨keys, .ok p⟩) visits (locked (submitReply caller p row.toAskRow))
      (Onwards visits 1 (Seen fun _ _ => True)) := by
  refine Does.admitted (fun env => Carries caller .reply (some row.fromCell) p.body env ∧
      env.askId = some p.askId ∧ env.replyTo = some row.messageId)
    (fun env r => env.kind = .reply ∧ env.fromCell = caller ∧
      env.askId = some p.askId ∧ r = row.fromCell) (fun _ _ => True)
    (submitReply_keeps (fun _ carries asked replies => ⟨carries, asked, replies⟩)
      fun env kind sender asked => ⟨kind, sender, asked, rfl⟩) off ?_ ?_ (fun i w r => ?_)
    fun _ _ _ _ => trivial
  · rintro env ⟨carries, asked, replies⟩
    refine ⟨carries.fromCell, ?_, fun _ => ⟨v, member, row, stored, ?_, replies, ?_, carries.toCell⟩⟩
    · apply carries.valid (by simp) bounded
      rw [asked, replies]
      exact fun _ => ⟨rfl, rfl⟩
    · rw [asked, same]
    · exact responder.trans carries.fromCell.symm
  · rintro env _ ⟨kind, sender, asked, rfl⟩
    refine ⟨kind, sender, checked, v, member, row, stored, ?_, rfl, responder⟩
    rw [asked, same]
  · rcases submitReply_adds caller p row.toAskRow (w.install i) r with fewer | added
    · exact .inl fewer
    · obtain ⟨fresh, target, more⟩ := added
      obtain rfl := List.mem_singleton.mp target
      have listed : row ∈ v.2.store.asks.filter (·.askId = p.askId) :=
        List.mem_filter.mpr ⟨stored, decide_eq_true same⟩
      have targeted : row.fromCell ∈ (Request.reply caller ⟨keys, .ok p⟩).targets visits :=
        List.mem_flatMap.mpr ⟨v, member, List.mem_map.mpr ⟨row, listed, rfl⟩⟩
      exact .inr ⟨more, written, fresh, targeted, fun _ counts => by cases counts⟩

end Submissions

theorem handleSend_does (caller : String) (params : Params SendParams) :
    Does (.send caller params) [] (handleSend caller params)
      (Accounted (.send caller params)) := by
  refine Does.raise fun _ _ => Does.raise fun p parsed => ?_
  obtain ⟨keys, parsed'⟩ := params
  obtain rfl := parsed_of_ok parsed
  let c : Charge := ⟨caller, 4 + attachSections p.fileRefs, 0, false⟩
  have charged : (Request.send caller ⟨keys, .ok p⟩).charge .sender = some c := rfl
  have only : ∀ axis c', (Request.send caller ⟨keys, .ok p⟩).charge axis = some c' →
      axis = .sender ∧ c' = c := by
    intro axis c' charged'
    simpa [Request.charges, c] using Table.mem_of_lookup charged'
  have place : c.place = 5 + attachSections p.fileRefs := by simp only [c, Charge.place]; omega
  refine (checkMsgType_does (spared_ahead (n := 1) charged
    (by simp only [place, List.length_nil]; omega)).off).bind ?_
  rintro msgs _ length₁ -
  refine (authorizeOutbound_does (spared_ahead charged
    (by simp only [place, length₁, List.length_append, List.length_nil]; omega))).bind ?_
  rintro auth _ - ⟨v, rfl, capable, reached⟩
  refine Does.raise fun _ _ => Does.raise fun _ bounded => ?_
  refine (checkAttachFiles_does (spared_ahead charged
    (by simp only [place, length₁, List.length_append, List.length_cons, List.length_nil]; omega))).bind ?_
  rintro att _ length₂ -
  refine (admitOutbound_does (fun _ => True) charged rfl
    (by simp only [c, length₁, length₂, List.length_append, List.length_nil, List.length_cons]; omega)
    ?_).bind ?_
  · intro visits' now beyond clock fits
    have passed : (Request.send caller ⟨keys, .ok p⟩).Spared visits' 2 := by
      apply Request.spared_past
      intro axis c' charged'
      obtain ⟨-, rfl⟩ := only axis c' charged'
      omega
    refine Goes.weaken ?_ (enforceQuota_does passed fun q => ?_)
    · rintro _ _ ⟨more, rfl, length, -⟩
      exact ⟨more, rfl, length, trivial⟩
    · rw [QuotaTracker.noteAndCheckCapability_unlimited rfl]
  rintro admission _ length₃ ⟨fits, -, queues⟩
  have length : ([] ++ msgs ++ [v] ++ att ++ admission).length = 7 + attachSections p.fileRefs := by
    simp [length₁, length₂, length₃]
    omega
  have passed : c.place + 1 < ([] ++ msgs ++ [v] ++ att ++ admission).length := by
    rw [length, place]
    omega
  have member : v ∈ [] ++ msgs ++ [v] ++ att ++ admission := by simp
  have admitted : (Request.send caller ⟨keys, .ok p⟩).Admitted
      ([] ++ msgs ++ [v] ++ att ++ admission) p.toCell := by
    have counted := queues.admitted (.send caller ⟨keys, .ok p⟩) ([] ++ msgs ++ [v] ++ att) []
      (by simp [Request.counting, length₁, length₂]; omega)
    rwa [List.append_nil] at counted
  have written := congrArg some length.symm
  refine Goes.weaken ?_ (submitSend_does bounded (spared_over (n := 1) charged passed).off
    ⟨v, member, capable, reached⟩ written admitted)
  rintro _ answer ⟨more, rfl, one, -⟩
  apply accounted charged passed
  · intro axis c' charged'
    obtain ⟨rfl, rfl⟩ := only axis c' charged'
    exact fits
  · exact written
  · exact one
  · exact fun fanout => by cases fanout

theorem handleAsk_does (caller : String) (params : Params AskParams) :
    Does (.ask caller params) [] (handleAsk caller params) (Accounted (.ask caller params)) := by
  refine Does.raise fun _ _ => Does.raise fun p parsed => ?_
  obtain ⟨keys, parsed'⟩ := params
  obtain rfl := parsed_of_ok parsed
  let c : Charge := ⟨caller, 3 + attachSections p.fileRefs, 0, false⟩
  let c' : Charge := ⟨caller, 3 + attachSections p.fileRefs, 1, false⟩
  have charged : (Request.ask caller ⟨keys, .ok p⟩).charge .sender = some c := rfl
  have charged' : (Request.ask caller ⟨keys, .ok p⟩).charge (.capability .ask) = some c' := rfl
  have only : ∀ axis d, (Request.ask caller ⟨keys, .ok p⟩).charge axis = some d →
      axis = .sender ∧ d = c ∨ axis = .capability .ask ∧ d = c' := by
    intro axis d listed
    simpa [Request.charges, c, c'] using Table.mem_of_lookup listed
  have place : c.place = 4 + attachSections p.fileRefs := by simp only [c, Charge.place]; omega
  refine (authorizeOutbound_does (spared_ahead charged
    (by simp only [place, List.length_nil]; omega))).bind ?_
  rintro auth _ - ⟨v, rfl, capable, reached⟩
  refine Does.raise fun _ _ => Does.raise fun _ bounded => ?_
  refine (checkAttachFiles_does (spared_ahead charged
    (by simp only [place, List.length_append, List.length_nil, List.length_cons]; omega))).bind ?_
  rintro att _ length₁ -
  refine (admitOutbound_does (fun visits => c'.fits (.capability .ask) visits = true)
    charged rfl (by simp only [c, length₁, List.length_append, List.length_nil, List.length_cons]; omega)
    ?_).bind ?_
  · intro visits' now beyond clock fits
    exact capabilityCharge_does charged' beyond fits (fun q => ⟨_, rfl⟩) clock rfl
  rintro admission _ length₂ ⟨fits, fits', queues⟩
  have length : ([] ++ [v] ++ att ++ admission).length = 6 + attachSections p.fileRefs := by
    simp [length₁, length₂]
    omega
  have passed : c.place + 1 < ([] ++ [v] ++ att ++ admission).length := by
    rw [length, place]
    omega
  refine (pendingAsksCount_does (spared_over (n := 1) charged passed).off).bind ?_
  rintro _ _ - ⟨counted, rfl, rfl⟩
  refine (enforceQuota_does (spared_over charged (by simp at passed ⊢; omega)) fun _ => rfl).bind ?_
  rintro _ _ - ⟨checked, rfl, below⟩
  have admitted := queues.admitted (.ask caller ⟨keys, .ok p⟩) ([] ++ [v] ++ att)
    [counted, checked] (by simp [Request.counting, length₁]; omega)
  generalize before : [] ++ [v] ++ att ++ admission = visits at length passed fits fits' admitted ⊢
  have past : c.place + 1 < (visits ++ [counted] ++ [checked]).length := by
    simp only [List.length_append, List.length_singleton]
    omega
  have arrived : (visits ++ [counted] ++ [checked]).length = p.insertion := by
    simp only [List.length_append, List.length_singleton, length, AskParams.insertion]
    omega
  have room : counted.2.store.pendingAsks caller < checked.2.memory.quota.config.pendingAskCap := by
    unfold QuotaTracker.checkPendingAskCap at below
    split at below
    · cases below
    · omega
  have member : v ∈ visits ++ [counted] ++ [checked] := by simp [← before]
  refine Goes.weaken ?_ (submitAsk_does bounded (spared_over (n := 1) charged past).off
    ⟨v, member, capable, reached⟩ arrived (by rwa [List.append_assoc])
    (by simp [← arrived]) (by simp [← arrived]) room)
  rintro _ answer ⟨more, rfl, one, -⟩
  apply accounted charged past
  · intro axis d charged''
    rw [List.append_assoc, Charge.fits_append
      (Nat.lt_of_le_of_lt (charge_place charged'' charged).2 passed)]
    rcases only axis d charged'' with ⟨rfl, rfl⟩ | ⟨rfl, rfl⟩
    · exact fits
    · exact fits'
  · exact congrArg some arrived.symm
  · exact one
  · exact fun fanout => by cases fanout

theorem handleBroadcast_does (caller : String) (params : Params BroadcastParams) :
    Does (.broadcast caller params) [] (handleBroadcast caller params)
      (Accounted (.broadcast caller params)) := by
  refine Does.raise fun _ _ => Does.raise fun p parsed => ?_
  obtain ⟨keys, parsed'⟩ := params
  obtain rfl := parsed_of_ok parsed
  let c : Charge := ⟨caller, 2 + attachSections p.fileRefs, 0, true⟩
  let c' : Charge := ⟨caller, 2 + attachSections p.fileRefs, 1, false⟩
  have charged : (Request.broadcast caller ⟨keys, .ok p⟩).charge .sender = some c := rfl
  have charged' : (Request.broadcast caller ⟨keys, .ok p⟩).charge (.capability .broadcast) =
      some c' := rfl
  have only : ∀ axis d, (Request.broadcast caller ⟨keys, .ok p⟩).charge axis = some d →
      axis = .sender ∧ d = c ∨ axis = .capability .broadcast ∧ d = c' := by
    intro axis d listed
    simpa [Request.charges, c, c'] using Table.mem_of_lookup listed
  have place : c.place = 3 + attachSections p.fileRefs := by simp only [c, Charge.place]; omega
  refine (checkMsgType_does (spared_ahead (n := 1) charged
    (by simp only [place, List.length_nil]; omega)).off).bind ?_
  rintro msgs _ length₁ -
  refine Does.raise fun _ _ => Does.raise fun _ bounded => ?_
  refine (checkAttachFiles_does (spared_ahead charged
    (by simp only [place, length₁, List.length_append, List.length_nil]; omega))).bind ?_
  rintro att _ length₂ -
  refine (currentAcl_does (spared_ahead (n := 1) charged
    (by simp only [place, length₁, length₂, List.length_append, List.length_nil]; omega)).off).bind ?_
  rintro _ acl - ⟨v, rfl, rfl⟩
  refine Does.raise fun _ capable => ?_
  cases recipients : v.2.memory.acl.recipientsForBroadcast caller with
  | mk included denied =>
    dsimp only
    refine (nowMs_does (spared_ahead (n := 1) charged
      (by simp only [place, length₁, length₂,
        List.length_append, List.length_nil, List.length_cons]; omega)).off).bind ?_
    rintro _ now - ⟨v', rfl, rfl⟩
    generalize earlier : [] ++ msgs ++ att = visits
    have length : visits.length = 1 + attachSections p.fileRefs := by
      simp [← earlier, length₁, length₂]
    have arrived : (visits ++ [v] ++ [v']).length = c.place := by
      simp only [List.length_append, List.length_singleton, length, place]
      omega
    have clock : clockOf v' = reading (visits ++ [v] ++ [v']) c.clock := by
      have position : c.clock = (visits ++ [v]).length := by
        simp only [List.length_append, List.length_singleton, length, c]
        omega
      rw [position, reading_last]
    have many : max included.length 1 = c.units (visits ++ [v] ++ [v']) := by
      have position : c.clock - 1 = visits.length := by
        simp only [length, c]
        omega
      simp [Charge.units, position, c, recipients]
    refine (senderCharge_does charged arrived clock many).bind ?_
    rintro first _ one fits
    have next : (visits ++ [v] ++ [v'] ++ first).length = c'.place := by
      rw [List.length_append, arrived, one]
      rfl
    have clock' : clockOf v' = reading (visits ++ [v] ++ [v'] ++ first) c'.clock := by
      rw [reading_append (by rw [arrived]; exact c.clock_lt_place)]
      exact clock
    refine (capabilityCharge_does charged' next fits (fun q => ⟨_, rfl⟩) clock' rfl).bind ?_
    rintro second _ one' fits'
    have passed : c.place + 1 < (visits ++ [v] ++ [v'] ++ first ++ second).length := by
      rw [List.length_append, next, one']
      exact Nat.lt_succ_self _
    have member : v ∈ visits ++ [v] ++ [v'] ++ first ++ second := by simp
    have written : (Request.broadcast caller ⟨keys, .ok p⟩).writing =
        some (visits ++ [v] ++ [v'] ++ first ++ second).length := by
      rw [List.length_append, next, one']
      simp only [Request.writing, c', Charge.place]
      congr 1
      omega
    refine Goes.weaken ?_ (submitBroadcast_does bounded (spared_over (n := 1) charged passed).off
      ⟨v, member, capable, congrArg Prod.fst recipients⟩ written)
    rintro _ answer ⟨more, rfl, last, -, -, messageId, rfl⟩
    apply accounted charged passed
    · intro axis d charged''
      rcases only axis d charged'' with ⟨rfl, rfl⟩ | ⟨rfl, rfl⟩
      · rw [Charge.fits_append (by rw [next]; exact Nat.lt_succ_self _)]
        exact fits
      · exact fits'
    · exact written
    · exact last
    · rintro - _ recipients' same
      obtain ⟨rfl, rfl⟩ := Answer.fannedOut.inj same
      have before : c.clock < (visits ++ [v] ++ [v']).length := by
        rw [arrived]
        exact c.clock_lt_place
      rw [List.append_assoc (visits ++ [v] ++ [v']), c.units_append before, ← many]
      exact Nat.le_max_left _ _

theorem handleReply_does (caller : String) (params : Params ReplyParams) :
    Does (.reply caller params) [] (handleReply caller params) (Accounted (.reply caller params)) := by
  refine Does.raise fun _ _ => Does.raise fun p parsed => ?_
  obtain ⟨keys, parsed'⟩ := params
  obtain rfl := parsed_of_ok parsed
  have free : ∀ axis, (Request.reply caller ⟨keys, .ok p⟩).charge axis = none := fun _ => rfl
  have off : ∀ visits, (Request.reply caller ⟨keys, .ok p⟩).Off visits :=
    fun _ => (Request.spared_free (n := 1) free).off
  refine Does.raise fun _ _ => Does.raise fun _ bounded => ?_
  refine (checkAttachFiles_does (Request.spared_free free)).bind ?_
  rintro att _ length -
  refine (checkCapability_does (off _)).bind ?_
  rintro _ _ - ⟨v, rfl, capable⟩
  refine (findAsk_does (off _)).bind ?_
  rintro _ ask - ⟨v', rfl, row, stored, same, rfl⟩
  have written : (Request.reply caller ⟨keys, .ok p⟩).writing =
      some ([] ++ att ++ [v] ++ [v']).length := by
    simp [Request.writing, length]
    omega
  have member : v ∈ [] ++ att ++ [v] ++ [v'] := by simp
  have member' : v' ∈ [] ++ att ++ [v] ++ [v'] := by simp
  generalize [] ++ att ++ [v] ++ [v'] = visits at written member member'
  split
  · exact Goes.throw trivial
  next responder =>
  have passed : ∀ more answer, more ≠ [] →
      Accounted (.reply caller ⟨keys, .ok p⟩) (visits ++ more) answer := by
    intro more answer some
    refine ⟨fun axis c charged => (by cases charged), fun place writing => ?_,
      fun _ _ _ charged => (by cases charged)⟩
    obtain rfl := Option.some.inj (written.symm.trans writing)
    have positive := List.length_pos_iff.mpr some
    rw [List.length_append]
    omega
  refine (submitReply_does bounded (off _) ⟨v, member, capable, trivial⟩ member' stored same
    (not_not.mp responder) written).bind ?_
  rintro _ ⟨outcome, messageId⟩ - ⟨u, rfl, -⟩
  cases outcome with
  | recorded =>
    refine (Does.passed (.notifyAsker _) (off _)).bind ?_
    rintro more _ - -
    rw [List.append_assoc]
    exact Goes.pure (passed _ _ (by simp))
  | duplicateIdentical messageId => exact Goes.pure (passed _ _ (by simp))
  | conflict => exact refuse_does (off _)

end Submitting

theorem handle_does (task : Nat) (request : Request) :
    Does request [] (handle task request) (Accounted request) := by
  have modest : ∀ {h : Handler Answer}, request.charges = [] → request.writing = none → Apart h →
      Does request [] h (Accounted request) := by
    intro h free silent apart
    have none : ∀ axis, request.charge axis = none := by
      intro axis
      rw [Request.charge, free]
      rfl
    refine Goes.weaken (fun visits answer _ => ?_) (apart.does none)
    refine ⟨fun axis c charged => ?_, fun place written => ?_, fun _ _ c charged => ?_⟩
    · cases (none axis).symm.trans charged
    · cases silent.symm.trans written
    · cases (none .sender).symm.trans charged
  cases request with
  | send caller params => exact handleSend_does caller params
  | ask caller params => exact handleAsk_does caller params
  | broadcast caller params => exact handleBroadcast_does caller params
  | reply caller params => exact handleReply_does caller params
  | await caller params => exact modest rfl rfl (handleAwait_apart task caller params)
  | inbox caller params => exact modest rfl rfl (handleInbox_apart caller params)
  | reportToolCorrelation caller params =>
    exact modest rfl rfl (handleReportToolCorrelation_apart caller params)
  | opStatus caller keys => exact modest rfl rfl (handleOpStatus_apart caller keys)

section Service
theorem program_does (task : Nat) (request : Request) :
    (service.program task request).Along (fun visits _ w w' => Effect request visits w w')
      (endsIn (fun _ _ => True) (Accounted request)) [] := handle_does task request

/-- Neither the delivery loop nor the rest of the daemon has one of the effects. -/
theorem loop_tends : System.Tends Aside service.loop :=
  Process.Along.bind (tick_apart []) fun _ _ _ => trivial

omit [Platform] in
theorem happens_aside (event : Event) (w w' : World) (happened : happens event w = some w') :
    Aside w w' := by
  cases event with
  | audited draft =>
    simp only [happens] at happened
    split at happened
    · cases happened
      exact ⟨rfl, rfl, fun _ => Nat.le_max_left _ _,
        ⟨[], rfl, fun _ inside => absurd inside List.not_mem_nil⟩, rfl, fun _ inside => .inl inside⟩
    · cases happened
  | minted =>
    cases happened
    exact ⟨rfl, rfl, fun _ => Nat.le_max_left _ _,
      ⟨[], rfl, fun _ inside => absurd inside List.not_mem_nil⟩, rfl, fun _ inside => .inl inside⟩

/-- What a call, a section, the surroundings and a crash keep, a run keeps. -/
theorem kept_run {fits : BusTracked → Move (Input Outside) Request Event → Prop}
    {P : BusTracked → Prop}
    (kept : System.Kept service (fun _ request visits _ w w' => Effect request visits w w')
      (fun _ request => endsIn (fun _ _ => True) (Accounted request)) Aside fits P)
    (first : P (System.dormant w).tracked)
    (run : service.Follows fits (System.dormant w).tracked t) : P t :=
  kept.follows program_does loop_tends happens_aside first run

/-- The limits are the same in all sections of a call. -/
theorem config_fixed {fits : BusTracked → Move (Input Outside) Request Event → Prop}
    (run : service.Follows fits (System.dormant w).tracked t) :
    System.Fixed (fun w : World => w.memory.quota.config) t := by
  refine kept_run (System.kept_fixed (fun _ _ _ _ _ _ moved => moved.config)
    fun _ _ aside => congrArg _ aside.quota) ?_ run
  intro k request ready act next found
  cases found

end Service

end Crewd.Bus
