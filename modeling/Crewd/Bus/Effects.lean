import Crewd.Bus.Confined
import Crewd.Bus.Runs
import Crewd.Windows

/-! What the sections of a request do to rate windows, pending asks and enqueued
messages. All but a few are confined to the rest of the state; the others charge a
window, or write what the sections before them have admitted and granted. -/
namespace Crewd.Bus
open Autocommit Concurrent

section Requests

/-- Checking file references takes a section when there are any. -/
def attachSections (fileRefs : List String) : Nat := if fileRefs.isEmpty then 0 else 1

def clockOf (v : Input Outside × World) : Nat := v.1.clock.headD 0

/-- What the clock said in a section that was visited. -/
def reading (visits : BusVisits) (place : Nat) : Nat := (visits[place]?.map clockOf).getD 0

/-- A charge of a window: the section that reads the clock, and how many come between
it and the charge. A fan-out is charged for the recipients found just before. -/
structure Charge where
  caller : String
  clock : Nat
  later : Nat
  fanout : Bool

namespace Charge

def place (c : Charge) : Nat := c.clock + 1 + c.later

/-- Each recipient is a unit, and no fan-out is free. -/
def units (c : Charge) (visits : BusVisits) : Nat :=
  if c.fanout then
    max ((visits[c.clock - 1]?.map fun v =>
      (v.2.memory.acl.recipientsForBroadcast c.caller).1.length).getD 0) 1
  else 1

/-- The charging section found room in the window. -/
def fits (axis : Axis) (c : Charge) (visits : BusVisits) : Bool :=
  visits[c.place]?.any fun v => decide (Within (v.2.memory.quota.limit axis) (reading visits c.clock)
    (c.units visits) (v.2.memory.quota.window axis c.caller))

end Charge

namespace Request

/-- The charges that a request comes to, the sender's first. -/
def charges : Request → List (Axis × Charge)
  | .send caller ⟨_, .ok p⟩ => [(.sender, ⟨caller, 4 + attachSections p.fileRefs, 0, false⟩)]
  | .ask caller ⟨_, .ok p⟩ => [(.sender, ⟨caller, 3 + attachSections p.fileRefs, 0, false⟩),
    (.capability .ask, ⟨caller, 3 + attachSections p.fileRefs, 1, false⟩)]
  | .broadcast caller ⟨_, .ok p⟩ => [(.sender, ⟨caller, 2 + attachSections p.fileRefs, 0, true⟩),
    (.capability .broadcast, ⟨caller, 2 + attachSections p.fileRefs, 1, false⟩)]
  | _ => []

def charge (axis : Axis) (request : Request) : Option Charge := request.charges.lookup axis

/-- A capability is charged after the sender, unless the sender's units did not fit. -/
def admits (request : Request) (visits : BusVisits) : Axis → Bool
  | .sender => true
  | .capability _ => (request.charge .sender).any (·.fits .sender visits)

/-- The next section charges no window. -/
def Off (request : Request) (visits : BusVisits) : Prop :=
  ∀ axis c, request.charge axis = some c → visits.length = c.place →
    request.admits visits axis = false

/-- Nor do the sections after it, that many in all. -/
def Spared (request : Request) (visits : BusVisits) (count : Nat) : Prop :=
  ∀ more, more.length < count → request.Off (visits ++ more)

end Request

/-- The section that inserts an ask. -/
def AskParams.insertion (p : AskParams) : Nat := 8 + attachSections p.fileRefs

/-- The section that writes the submission. -/
def Request.writing : Request → Option Nat
  | .send _ ⟨_, .ok p⟩ => some (7 + attachSections p.fileRefs)
  | .ask _ ⟨_, .ok p⟩ => some p.insertion
  | .broadcast _ ⟨_, .ok p⟩ => some (5 + attachSections p.fileRefs)
  | .reply _ ⟨_, .ok p⟩ => some (2 + attachSections p.fileRefs)
  | _ => none

/-- How many messages were enqueued for the recipient. -/
def sentTo (recipient : String) (w : World) : Nat := (sent w).countP (·.2 = recipient)

/-- The section that counts the recipient's queue; the next one checks the count. -/
def Request.counting : Request → Option Nat
  | .send _ ⟨_, .ok p⟩ => some (2 + attachSections p.fileRefs)
  | .ask _ ⟨_, .ok p⟩ => some (1 + attachSections p.fileRefs)
  | _ => none

/-- The call has counted the recipient's queue, and the count was let pass. -/
def Request.Admitted (request : Request) (visits : BusVisits) (recipient : String) : Prop :=
  ∀ place, request.counting = some place → ∃ counted checked, visits[place]? = some counted ∧
    visits[place + 1]? = some checked ∧ checked.2.memory.quota.checkQueueDepth
      (counted.2.store.pendingFor recipient) = .ok ()

/-- Whom the call writes to, with what it has found out in the sections before. -/
def Request.targets : Request → BusVisits → List String
  | .send _ ⟨_, .ok p⟩, _ => [p.toCell]
  | .ask _ ⟨_, .ok p⟩, _ => [p.toCell]
  | .broadcast caller ⟨_, .ok _⟩, visits =>
    visits.flatMap fun v => (v.2.memory.acl.recipientsForBroadcast caller).1
  | .reply _ ⟨_, .ok p⟩, visits =>
    visits.flatMap fun v => (v.2.store.asks.filter (·.askId = p.askId)).map (·.fromCell)
  | _, _ => []

/-- The key of a submission is not bound to an earlier one. -/
def Unbound [Platform] (caller : String) (key : Option String) (w : World) : Prop :=
  w.store.binding caller (key.getD (Platform.uuid w.minted)) = none

/-- The submission is not answered from an earlier one, and the ask of a reply waits. -/
def Request.Fresh [Platform] (w : World) : Request → Prop
  | .send caller ⟨_, .ok p⟩ => Unbound caller p.idempotencyKey w
  | .ask caller ⟨_, .ok p⟩ => Unbound caller p.idempotencyKey w
  | .broadcast caller ⟨_, .ok p⟩ => Unbound caller p.idempotencyKey w
  | .reply _ ⟨_, .ok p⟩ => (w.store.ask p.askId).any (·.state = .pending) = true
  | _ => True

/-- One more message is enqueued for the recipient, by the section that writes the
submission. -/
structure Adds [Platform] (request : Request) (visits : BusVisits) (w w' : World)
    (recipient : String) : Prop where
  more : sentTo recipient w' ≤ sentTo recipient w + 1
  writes : request.writing = some visits.length
  fresh : request.Fresh w
  target : recipient ∈ request.targets visits
  admitted : request.Admitted visits recipient

/-- The key of an ask is not bound to an earlier one. -/
def AskParams.unbound [Platform] (caller : String) (p : AskParams) (w : World) : Prop :=
  Unbound caller p.idempotencyKey w

/-- One more ask of its caller is pending. It was counted two sections ago, and its cap
checked in the section before. -/
def Opens [Platform] (request : Request) (visits : BusVisits) (w w' : World) : Prop :=
  ∃ caller keys p counted checked, request = .ask caller ⟨keys, .ok p⟩ ∧
    visits.length = p.insertion ∧ p.unbound caller w ∧
    visits[p.insertion - 2]? = some counted ∧ visits[p.insertion - 1]? = some checked ∧
    counted.2.store.pendingAsks caller < checked.2.memory.quota.config.pendingAskCap ∧
    w'.store.pendingAsks caller ≤ w.store.pendingAsks caller + 1 ∧
    ∀ cell, cell ≠ caller → w'.store.pendingAsks cell ≤ w.store.pendingAsks cell

/-- The ACL was found to let the caller use the capability. -/
def Checked (visits : BusVisits) (caller : String) (cap : Capability) (more : Acl → Prop) : Prop :=
  ∃ v ∈ visits, v.2.memory.acl.check caller cap = .ok () ∧ more v.2.memory.acl

/-- What was found out before a message is enqueued for a recipient. -/
def Granted (request : Request) (visits : BusVisits) (env : Envelope) (recipient : String) : Prop :=
  match request with
  | .send caller _ => env.kind = .send ∧ env.fromCell = caller ∧
    Checked visits caller .send fun acl => acl.checkReach caller recipient .send = .ok ()
  | .ask caller _ => env.kind = .ask ∧ env.fromCell = caller ∧
    Checked visits caller .ask fun acl => acl.checkReach caller recipient .ask = .ok ()
  | .broadcast caller _ => env.kind = .broadcast ∧ env.fromCell = caller ∧
    Checked visits caller .broadcast fun acl => recipient ∈ (acl.recipientsForBroadcast caller).1
  | .reply caller _ => env.kind = .reply ∧ env.fromCell = caller ∧
    Checked visits caller .reply (fun _ => True) ∧
    ∃ v ∈ visits, ∃ ask ∈ v.2.store.asks, env.askId = some ask.askId ∧ ask.fromCell = recipient ∧
      ask.toCell = caller
  | _ => False

/-- The author of the messages that the request may write. -/
def Request.author : Request → String
  | .send caller _ | .ask caller _ | .await caller _ | .reply caller _ | .inbox caller _
  | .broadcast caller _ | .reportToolCorrelation caller _ | .opStatus caller _ => caller

/-- The envelope comes from the caller and is valid, and a reply refers to an ask that
was read before. -/
structure Authored (request : Request) (visits : BusVisits) (env : Envelope) : Prop where
  author : env.fromCell = request.author
  valid : env.validateInvariants = .ok ()
  refers : env.kind = .reply → ∃ v ∈ visits, ∃ ask ∈ v.2.store.asks, env.askId = some ask.askId ∧
    env.replyTo = some ask.messageId ∧ ask.toCell = env.fromCell ∧ env.toCell = some ask.fromCell

structure Effect [Platform] (request : Request) (visits : BusVisits) (w w' : World) : Prop where
  acl : w'.memory.acl = w.memory.acl
  config : w'.memory.quota.config = w.memory.quota.config
  charged : ∀ axis c, request.charge axis = some c → visits.length = c.place →
    request.admits visits axis = true → w'.memory.quota.window axis c.caller =
      Crewd.charge (w.memory.quota.limit axis) (reading visits c.clock) (c.units visits)
        (w.memory.quota.window axis c.caller)
  spared : ∀ axis cell, w'.memory.quota.window axis cell = w.memory.quota.window axis cell ∨
    ∃ c, request.charge axis = some c ∧ c.caller = cell ∧ visits.length = c.place ∧
      request.admits visits axis = true
  asks : (∀ cell, w'.store.pendingAsks cell ≤ w.store.pendingAsks cell) ∨
    Opens request visits w w'
  sent : ∀ entry ∈ sent w', entry ∈ sent w ∨ Granted request visits entry.1 entry.2
  life : lives w'.history = lives w.history
  authored : ∀ env ∈ w'.store.envelopes, env ∈ w.store.envelopes ∨ Authored request visits env
  adds : ∀ recipient, sentTo recipient w' ≤ sentTo recipient w ∨
    Adds request visits w w' recipient

/-- What a successful answer says about the sections of the call: each charge had room
for its units, as many as a fan-out has recipients, and the submission was written. -/
structure Accounted (request : Request) (visits : BusVisits) (answer : Answer) : Prop where
  fits : ∀ axis c, request.charge axis = some c →
    c.fits axis visits = true ∧ request.admits visits axis = true
  written : ∀ place, request.writing = some place → place < visits.length
  fanned : ∀ messageId recipients c, request.charge .sender = some c → c.fanout = true →
    answer = .fannedOut messageId recipients → recipients.length ≤ c.units visits

end Requests

section Visited
variable {request : Request} {visits more : BusVisits} {axis : Axis} {c : Charge} {n m : Nat}

theorem reading_append (inside : n < visits.length) :
    reading (visits ++ more) n = reading visits n := by
  rw [reading, List.getElem?_append_left inside, reading]

theorem reading_last (v : Input Outside × World) : reading (visits ++ [v]) visits.length = clockOf v := by
  simp [reading]

namespace Charge

theorem units_append (inside : c.clock < visits.length) :
    c.units (visits ++ more) = c.units visits := by
  rw [units, List.getElem?_append_left (by omega), units]

theorem clock_lt_place : c.clock < c.place := by
  unfold place
  omega

theorem fits_append (inside : c.place < visits.length) :
    c.fits axis (visits ++ more) = c.fits axis visits := by
  have before := c.clock_lt_place
  rw [fits, List.getElem?_append_left inside, reading_append (by omega), units_append (by omega), fits]

/-- What the charging section has found. -/
theorem fits_last (v : Input Outside × World) (here : visits.length = c.place) :
    c.fits axis (visits ++ [v]) = decide (Within (v.2.memory.quota.limit axis)
      (reading visits c.clock) (c.units visits) (v.2.memory.quota.window axis c.caller)) := by
  have before := c.clock_lt_place
  rw [fits, reading_append (by omega), units_append (by omega), ← here]
  simp

end Charge

namespace Request

theorem Spared.off (spared : request.Spared visits (n + 1)) : request.Off visits := by
  simpa using spared [] (Nat.succ_pos n)

theorem Spared.after (spared : request.Spared visits n) (fewer : more.length + m ≤ n) :
    request.Spared (visits ++ more) m := by
  intro rest less
  rw [List.append_assoc]
  apply spared
  rw [List.length_append]
  omega

theorem Spared.next (spared : request.Spared visits (n + 1)) (v : Input Outside × World) :
    request.Spared (visits ++ [v]) n :=
  spared.after (Nat.le_of_eq (Nat.add_comm 1 n))

/-- While all charges are still to come. -/
theorem spared_before
    (ahead : ∀ axis c, request.charge axis = some c → visits.length + n ≤ c.place) :
    request.Spared visits n := by
  intro more less axis c charged here
  have place := ahead axis c charged
  rw [List.length_append] at here
  omega

/-- When all charges are over. -/
theorem spared_past (past : ∀ axis c, request.charge axis = some c → c.place < visits.length) :
    request.Spared visits n := by
  intro more _ axis c charged here
  have place := past axis c charged
  rw [List.length_append] at here
  omega

theorem spared_free (free : ∀ axis, request.charge axis = none) : request.Spared visits n :=
  spared_past fun axis _ charged => by cases (free axis).symm.trans charged

end Request
end Visited

/-- Confined to what no rate limit, cap or grant is about. -/
abbrev Aside (w w' : World) : Prop :=
  Confined (fun _ => 0) (fun _ => False) (fun _ _ => False) w w'

abbrev Spares {α : Type} (m : Act α) : Prop :=
  Abides (fun _ => 0) (fun _ => False) (fun _ _ => False) m

/-- Nothing is enqueued where nothing is allowed. -/
theorem Confined.sentTo_eq {room : String → Nat} {drafts : Envelope → Prop}
    (confined : Confined room drafts (fun _ _ => False) w w') (recipient : String) :
    sentTo recipient w' = sentTo recipient w := by
  rw [sentTo, confined.sent_eq, sentTo]

variable [Platform] {request : Request} {visits : BusVisits} {α β : Type}

/-- A section that charges nothing and enqueues only what was granted. -/
theorem Confined.effect_of {room : String → Nat} {drafts : Envelope → Prop}
    {allowed : Envelope → String → Prop}
    (confined : Confined room drafts allowed w w') (off : request.Off visits)
    (authors : ∀ env, drafts env → Authored request visits env)
    (grants : ∀ env recipient, allowed env recipient → Granted request visits env recipient)
    (asks : (∀ cell, w'.store.pendingAsks cell ≤ w.store.pendingAsks cell) ∨
      Opens request visits w w')
    (adds : ∀ recipient, sentTo recipient w' ≤ sentTo recipient w ∨
      Adds request visits w w' recipient) : Effect request visits w w' where
  acl := confined.acl
  config := by rw [confined.quota]
  charged axis c charged here admitted := by
    rw [off axis c charged here] at admitted
    cases admitted
  spared _ _ := .inl (by rw [confined.quota])
  asks := asks
  sent entry inside := (confined.sent entry inside).imp_right (grants entry.1 entry.2)
  life := confined.life
  authored env inside := (confined.drafted env inside).imp_right (authors env)
  adds := adds

theorem Confined.effect {drafts : Envelope → Prop} {allowed : Envelope → String → Prop}
    (confined : Confined (fun _ => 0) drafts allowed w w') (off : request.Off visits)
    (authors : ∀ env, drafts env → Authored request visits env)
    (grants : ∀ env recipient, allowed env recipient → Granted request visits env recipient)
    (adds : ∀ recipient, sentTo recipient w' ≤ sentTo recipient w ∨
      Adds request visits w w' recipient) : Effect request visits w w' := by
  refine confined.effect_of off authors grants (.inl fun cell => ?_) adds
  have within := confined.asks cell
  rwa [Nat.max_zero] at within

/-- A section that enqueues nothing. -/
theorem Confined.effect_aside (aside : Aside w w') (off : request.Off visits) :
    Effect request visits w w' :=
  aside.effect off (fun _ never => never.elim) (fun _ _ never => never.elim)
    fun recipient => .inl (aside.sentTo_eq recipient).le

/-- The handler's sections have their effects, and it ends as described. -/
abbrev Does (request : Request) (visits : BusVisits) (h : Handler α)
    (answered : BusVisits → α → Prop) : Prop :=
  Goes (fun visits _ w w' => Effect request visits w w') (fun _ _ => True) visits h answered

/-- Sections that were visited, their number and what they found. -/
def Onwards (visits : BusVisits) (count : Nat) (found : BusVisits → α → Prop) (visits' : BusVisits)
    (a : α) : Prop :=
  ∃ more, visits' = visits ++ more ∧ more.length = count ∧ found more a

/-- What one section finds. -/
def Seen (found : Input Outside × World → α → Prop) (more : BusVisits) (a : α) : Prop :=
  ∃ v, more = [v] ∧ found v a

namespace Does
variable {count : Nat} {found : BusVisits → α → Prop} {answered : BusVisits → β → Prop}

theorem admitted {m : Act α} (drafts : Envelope → Prop) (allowed : Envelope → String → Prop)
    (seen : Input Outside × World → α → Prop) (keeps : Abides (fun _ => 0) drafts allowed m)
    (off : request.Off visits) (authors : ∀ env, drafts env → Authored request visits env)
    (grants : ∀ env recipient, allowed env recipient → Granted request visits env recipient)
    (adds : ∀ i w recipient, sentTo recipient (m.exec (w.install i)).2 ≤ sentTo recipient w ∨
      Adds request visits w (m.exec (w.install i)).2 recipient)
    (holds : ∀ i w a, (m.exec (w.install i)).1 = .ok a → seen (i, w) a) :
    Does request visits (Crewd.locked m) (Onwards visits 1 (Seen seen)) := by
  apply Goes.locked
  · exact fun i w => ((Confined.ofQuiet _ _ (w.quiet_install i)).trans (keeps.exec _)).effect off
      authors grants (adds i w)
  · exact fun i w a ran => ⟨[(i, w)], rfl, rfl, (i, w), rfl, holds i w a ran⟩
  · exact fun _ _ _ _ => trivial

theorem locked {m : Act α} {seen : Input Outside × World → α → Prop} (spares : Spares m)
    (off : request.Off visits) (holds : ∀ i w a, (m.exec (w.install i)).1 = .ok a → seen (i, w) a) :
    Does request visits (Crewd.locked m) (Onwards visits 1 (Seen seen)) :=
  admitted _ _ seen spares off (fun _ never => never.elim) (fun _ _ never => never.elim)
    (fun _ _ recipient => .inl ((spares.exec _).sentTo_eq recipient).le) holds

/-- A section of which nothing is needed. -/
theorem passed {m : Act α} (spares : Spares m) (off : request.Off visits) :
    Does request visits (Crewd.locked m) (Onwards visits 1 (Seen fun _ _ => True)) :=
  locked spares off fun _ _ _ _ => trivial

/-- A part that visits so many sections and finds something out, and what follows it. -/
theorem bind {h : Handler α} {f : α → Handler β}
    (first : Does request visits h (Onwards visits count found))
    (rest : ∀ more a, more.length = count → found more a →
      Does request (visits ++ more) (f a) answered) :
    Does request visits (h >>= f) answered := by
  refine Goes.bind first ?_
  rintro visits' a ⟨more, rfl, length, fact⟩
  exact rest more a length fact

theorem raise {r : Except BusError α} {f : α → Handler β}
    (rest : ∀ a, r = .ok a → Does request visits (f a) answered) :
    Does request visits (Crewd.raise r >>= f) answered :=
  Goes.raised (fun _ _ => trivial) rest

end Does

section Gates
variable {caller target : String}

theorem currentAcl_does (off : request.Off visits) :
    Does request visits currentAcl (Onwards visits 1 (Seen fun v acl => acl = v.2.memory.acl)) :=
  .locked (.silent (.readMemory _)) off fun _ _ _ ran => (Except.ok.inj ran).symm

theorem refuse_does {kind outcome : String} {addressee : Option String} {e : BusError}
    {answered : BusVisits → α → Prop} (off : request.Off visits) :
    Does request visits (refuse kind caller addressee outcome e) answered :=
  (Does.passed (.audit _ _ _ _ _ _) off).bind fun _ _ _ _ => Goes.throw trivial

theorem checkCapability_does {cap : Capability} (off : request.Off visits) :
    Does request visits (checkCapability caller cap)
      (Onwards visits 1 (Seen fun v _ => v.2.memory.acl.check caller cap = .ok ())) := by
  refine (currentAcl_does off).bind ?_
  rintro more acl - ⟨v, rfl, rfl⟩
  exact Goes.raise (fun _ ok => ⟨[v], rfl, rfl, v, rfl, ok⟩) fun _ _ => trivial

theorem checkMsgType_does {msgType : MsgType} (off : request.Off visits) :
    Does request visits (checkMsgType caller msgType) (Onwards visits 1 fun _ _ => True) := by
  refine (currentAcl_does off).bind ?_
  rintro more acl length -
  have passed : Onwards visits 1 (fun _ (_ : Unit) => True) (visits ++ more) () :=
    ⟨more, rfl, length, trivial⟩
  cases msgType <;> exact Goes.raise (fun _ _ => passed) fun _ _ => trivial

theorem authorizeOutbound_does {cap : Capability} {via : ReachVia}
    (spared : request.Spared visits 2) :
    Does request visits (authorizeOutbound caller target cap via)
      (Onwards visits 1 (Seen fun v _ => v.2.memory.acl.check caller cap = .ok () ∧
        v.2.memory.acl.checkReach caller target via = .ok ())) := by
  refine (currentAcl_does spared.off).bind ?_
  rintro more acl - ⟨v, rfl, rfl⟩
  refine Does.raise fun _ capable => ?_
  split
  · cases reached : v.2.memory.acl.checkReach caller target via with
    | ok _ => exact Goes.pure ⟨[v], rfl, rfl, v, rfl, capable, reached⟩
    | error e => exact refuse_does (spared.next v).off
  · exact Goes.throw trivial

theorem checkAttachFiles_does {fileRefs : List String} (spared : request.Spared visits 1) :
    Does request visits (checkAttachFiles caller fileRefs)
      (Onwards visits (attachSections fileRefs) fun _ _ => True) := by
  unfold checkAttachFiles attachSections
  split
  · exact Goes.pure ⟨[], by simp, rfl, trivial⟩
  · refine Goes.weaken ?_ (checkCapability_does spared.off)
    rintro visits' a ⟨more, rfl, length, -⟩
    exact ⟨more, rfl, length, trivial⟩

/-- A check of the quotas that charges nothing. -/
theorem enforceQuota_does {f : QuotaTracker → Except BusError Unit × QuotaTracker}
    {addressee : Option String} (spared : request.Spared visits 2) (still : ∀ q, (f q).2 = q) :
    Does request visits (enforceQuota caller addressee f)
      (Onwards visits 1 (Seen fun v _ => (f v.2.memory.quota).1 = .ok ())) := by
  have checked : Does request visits (checkQuota f)
      (Onwards visits 1 (Seen fun v r => r = (f v.2.memory.quota).1)) :=
    .locked (.writeMemory (fun m => still m.quota) fun _ => rfl) spared.off
      fun _ _ _ ran => (Except.ok.inj ran).symm
  refine checked.bind ?_
  rintro more r - ⟨v, rfl, same⟩
  cases r with
  | ok _ => exact Goes.pure ⟨[v], rfl, rfl, v, rfl, same.symm⟩
  | error e => exact refuse_does (spared.next v).off

theorem nowMs_does (off : request.Off visits) :
    Does request visits (locked nowMs) (Onwards visits 1 (Seen fun v now => now = clockOf v)) := by
  refine .locked (.silent .nowMs) off fun i w now ran => ?_
  simp only [nowMs, Action.exec_step, World.install] at ran
  rcases readings : i.clock with _ | ⟨first, _ | ⟨second, later⟩⟩ <;> rw [readings] at ran <;>
    simpa [clockOf, readings] using (Except.ok.inj ran).symm

theorem pendingDeliveriesCount_does (off : request.Off visits) :
    Does request visits (locked (pendingDeliveriesCount target))
      (Onwards visits 1 (Seen fun v count => count = v.2.store.pendingFor target)) :=
  .locked (.query _) off fun _ _ _ ran => query_reads ran

theorem pendingAsksCount_does (off : request.Off visits) :
    Does request visits (locked (pendingAsksCount caller))
      (Onwards visits 1 (Seen fun v count => count = v.2.store.pendingAsks caller)) :=
  .locked (.query _) off fun _ _ _ ran => query_reads ran

/-- The charge of a window. When the units do not fit, the refusal is the next section. -/
theorem charge_does {axis : Axis} {c : Charge} {addressee : Option String} {now units : Nat}
    {f : QuotaTracker → Except BusError Unit × QuotaTracker}
    (charged : request.charge axis = some c) (here : visits.length = c.place)
    (admitted : request.admits visits axis = true)
    (alone : ∀ other c', request.charge other = some c' → c'.place = c.place → other = axis)
    (clock : now = reading visits c.clock) (many : units = c.units visits)
    (writes : ∀ (q : QuotaTracker) other cell, (f q).2.window other cell =
      if other = axis ∧ c.caller = cell then
        Crewd.charge (q.limit axis) now units (q.window axis cell) else q.window other cell)
    (config : ∀ q, (f q).2.config = q.config)
    (ok_iff : ∀ q, (f q).1 = .ok () ↔ Within (q.limit axis) now units (q.window axis c.caller))
    (refused : ∀ v, c.fits axis (visits ++ [v]) = false → request.Off (visits ++ [v])) :
    Does request visits (enforceQuota c.caller addressee f)
      (Onwards visits 1 fun more _ => c.fits axis (visits ++ more) = true) := by
  subst clock many
  have counted : Does request visits (checkQuota f) (Onwards visits 1 fun more r =>
      ∃ v, more = [v] ∧ (r = .ok () ↔ c.fits axis (visits ++ [v]) = true)) := by
    apply Goes.locked
    · intro i w
      refine ⟨rfl, config _, ?_, ?_, .inl fun _ => Nat.le_refl _, fun _ inside => .inl inside, rfl,
        fun _ inside => .inl inside, fun _ => .inl (Nat.le_refl _)⟩
      · intro other c' charged' here' _
        obtain rfl := alone other c' charged' (here'.symm.trans here)
        obtain rfl := Option.some.inj (charged.symm.trans charged')
        exact (writes w.memory.quota other c.caller).trans (if_pos ⟨rfl, rfl⟩)
      · intro other cell
        by_cases own : other = axis ∧ c.caller = cell
        · obtain ⟨rfl, same⟩ := own
          exact .inr ⟨c, charged, same, here, admitted⟩
        · exact .inl ((writes w.memory.quota other cell).trans (if_neg own))
    · intro i w r ran
      refine ⟨[(i, w)], rfl, rfl, (i, w), rfl, ?_⟩
      obtain rfl := Except.ok.inj ran
      rw [Charge.fits_last _ here, decide_eq_true_iff]
      exact ok_iff w.memory.quota
    · exact fun _ _ _ _ => trivial
  refine counted.bind ?_
  rintro more r - ⟨v, rfl, fits⟩
  cases r with
  | ok _ => exact Goes.pure ⟨[v], rfl, rfl, fits.mp rfl⟩
  | error e =>
    apply refuse_does
    apply refused
    rw [← Bool.not_eq_true, ← fits]
    exact fun same => by cases same

end Gates
end Crewd.Bus
