import Crewd.Bus.Walks
import Crewd.Lib.Pacing

/-! Rate ceilings of a cell over whole runs. The sender's window and those of asks and
broadcasts account for what was charged to them, as far as they have not forgotten it;
nothing accounts for submissions that carry file references. The condition on a run is
that nothing is forgotten that still counts, and the check that is missing. -/
namespace Crewd.Bus
open Autocommit Concurrent Pacing

section Submissions

/-- What a cell may do only so often in a minute. -/
inductive Rate where
  | units
  | asks
  | broadcasts
  | attachments

/-- The window that a rate is charged to; none is charged for file references. -/
def Rate.axis : Rate → Option Axis
  | .units => some .sender
  | .asks => some (.capability .ask)
  | .broadcasts => some (.capability .broadcast)
  | .attachments => none

def Rate.ceiling (quota : QuotaConfig) : Rate → Nat
  | .units => quota.senderPerMin
  | .asks => quota.askPerMin
  | .broadcasts => quota.broadcastPerMin
  | .attachments => quota.attachFilesPerMin

/-- A submission is dated by the reading of the clock in one of its sections. -/
structure Dated where
  caller : String
  fileRefs : List String
  clock : Nat

def Request.dated : Request → Option Dated
  | .send caller ⟨_, .ok p⟩ => some ⟨caller, p.fileRefs, 4 + attachSections p.fileRefs⟩
  | .ask caller ⟨_, .ok p⟩ => some ⟨caller, p.fileRefs, 3 + attachSections p.fileRefs⟩
  | .broadcast caller ⟨_, .ok p⟩ => some ⟨caller, p.fileRefs, 2 + attachSections p.fileRefs⟩
  | .reply caller ⟨_, .ok p⟩ => some ⟨caller, p.fileRefs, 2 + attachSections p.fileRefs⟩
  | _ => none

/-- How much an accepted call counts. -/
def Rate.counted : Rate → Request → Answer → Nat
  | .units, .send _ _, _ => 1
  | .units, .ask _ _, _ => 1
  | .units, .broadcast _ _, .fannedOut _ recipients => recipients.length
  | .asks, .ask _ _, _ => 1
  | .broadcasts, .broadcast _ _, _ => 1
  | .attachments, request, _ => if request.dated.any (!·.fileRefs.isEmpty) then 1 else 0
  | _, _, _ => 0

/-- The accepted submissions of the cell. -/
def accepted (t : BusTracked) (rate : Rate) (cell : String) (k : Nat) : Option Entry :=
  match t.config.pool[k]? with
  | some (request, some (.done (.ok answer))) => request.dated.bind fun s =>
    if s.caller = cell then
      some ⟨reading (t.visits k) s.clock, rate.counted request answer, 0⟩
    else none
  | _ => none

def tasks (t : BusTracked) : Finset Nat := Finset.range t.config.pool.length

end Submissions

section Admissions

/-- The charge for which a call has found room in the cell's window. -/
def Request.admission (request : Request) (axis : Axis) (cell : String) (visits : BusVisits) :
    Option Entry :=
  (request.charge axis).bind fun c => visits[c.place]?.bind fun v =>
    if c.caller = cell ∧ c.fits axis visits = true ∧ request.admits visits axis = true then
      some ⟨reading visits c.clock, c.units visits, lives v.2.history⟩
    else none

/-- The reading with which a call has come to the cell's window, with room or without. -/
def Request.attempt (request : Request) (axis : Axis) (cell : String) (visits : BusVisits) :
    Option Nat :=
  (request.charge axis).bind fun c =>
    if c.caller = cell ∧ c.place < visits.length ∧ request.admits visits axis = true then
      some (reading visits c.clock)
    else none

def requested (t : BusTracked) (k : Nat) : Option Request := t.config.pool[k]?.map (·.1)

def admissions (t : BusTracked) (axis : Axis) (cell : String) (k : Nat) : Option Entry :=
  (requested t k).bind fun request => request.admission axis cell (t.visits k)

def Attempted (t : BusTracked) (axis : Axis) (cell : String) (nowMs : Nat) : Prop :=
  ∃ k < t.config.pool.length, ((requested t k).bind fun request =>
    request.attempt axis cell (t.visits k)) = some nowMs

/-- Where a charge finds room, every admission of the last minute is known: it was made
since the daemon has started, and no call that came to the window read the clock a
minute later. -/
def Remembers (t : BusTracked) (request : Request) (visits : BusVisits) (axis : Axis) (c : Charge) :
    Prop :=
  visits.length = c.place → request.admits visits axis = true →
  Within (t.config.shared.memory.quota.limit axis) (reading visits c.clock) (c.units visits)
    (t.config.shared.memory.quota.window axis c.caller) →
  ∀ k < t.config.pool.length, ∀ e ∈ admissions t axis c.caller k,
    Recalled windowMs (Attempted t axis c.caller) (lives t.config.shared.history)
      (reading visits c.clock) e

/-- Once a submission with file references is written, fewer than the ceiling of those
that were accepted still count. -/
def Attaches (quota : QuotaConfig) (t : BusTracked) (request : Request) (visits : BusVisits)
    (v : Input Outside × World) : Prop :=
  ∀ s ∈ request.dated, s.fileRefs ≠ [] → (∃ place ∈ request.writing, place ≤ visits.length) →
    booked (fun e => reading (visits ++ [v]) s.clock < e.time + windowMs)
      (accepted t .attachments s.caller) (tasks t) < quota.attachFilesPerMin

/-- The condition on a run under these ceilings. -/
def Unhurried (quota : QuotaConfig) (t : BusTracked) : Move (Input Outside) Request Event → Prop
  | .run task i => ∀ request ∈ requested t task,
    (∀ entry ∈ request.charges, Remembers t request (t.visits task) entry.1 entry.2) ∧
      Attaches quota t request (t.visits task) (i, t.config.shared)
  | .crash i => ∀ start ∈ i.outside.start, start.quota = quota
  | _ => True

end Admissions

section Sections
variable {request : Request} {visits more : BusVisits} {axis : Axis} {cell : String} {c : Charge}

/-- The next section charges this window. -/
structure Charging (request : Request) (visits : BusVisits) (axis : Axis) (cell : String)
    (c : Charge) : Prop where
  charged : request.charge axis = some c
  caller : c.caller = cell
  here : visits.length = c.place
  admitted : request.admits visits axis = true

theorem admits_append (charged : request.charge axis = some c) (inside : c.place ≤ visits.length) :
    request.admits (visits ++ more) axis = request.admits visits axis := by
  cases axis with
  | sender => rfl
  | capability cap =>
    unfold Request.admits
    cases sender : request.charge .sender with
    | none => rfl
    | some c' =>
      obtain ⟨-, clock, -, -, first⟩ := charge_shape charged sender
      obtain ⟨-, -, -, -, first'⟩ := charge_shape sender charged
      have later : c.later ≠ 0 := fun none => by cases first.mpr none
      have before : c'.place < c.place := by
        have none := first'.mp rfl
        unfold Charge.place
        omega
      exact Charge.fits_append (Nat.lt_of_lt_of_le before inside)

/-- A section that does not charge the window makes no entry. -/
theorem admission_next (apart : ∀ c, ¬ Charging request visits axis cell c)
    (v : Input Outside × World) :
    request.admission axis cell (visits ++ [v]) = request.admission axis cell visits := by
  unfold Request.admission
  cases charged : request.charge axis with
  | none => rfl
  | some c =>
    simp only [Option.bind_some]
    rcases Nat.lt_trichotomy visits.length c.place with before | here | after
    · rw [List.getElem?_eq_none (by simp; omega), List.getElem?_eq_none (by omega),
        Option.bind_none, Option.bind_none]
    · rw [List.getElem?_eq_none (Nat.le_of_eq here), ← here, List.getElem?_concat_length,
        Option.bind_some, Option.bind_none, if_neg]
      rintro ⟨caller, -, admitted⟩
      rw [admits_append charged (Nat.le_of_eq here.symm)] at admitted
      exact apart c ⟨charged, caller, here, admitted⟩
    · have before := c.clock_lt_place
      rw [List.getElem?_append_left after, Charge.fits_append after, reading_append (by omega),
        Charge.units_append (by omega), admits_append charged (Nat.le_of_lt after)]

theorem admission_unvisited : request.admission axis cell [] = none := by
  cases charged : request.charge axis <;> simp [Request.admission, charged]

theorem attempt_next (apart : ∀ c, ¬ Charging request visits axis cell c)
    (v : Input Outside × World) :
    request.attempt axis cell (visits ++ [v]) = request.attempt axis cell visits := by
  unfold Request.attempt
  cases charged : request.charge axis with
  | none => rfl
  | some c =>
    simp only [Option.bind_some]
    rcases Nat.lt_trichotomy visits.length c.place with before | here | after
    · have unvisited : ¬ c.place < (visits ++ [v]).length := by
        rw [List.length_append, List.length_singleton]
        omega
      rw [if_neg fun attempt => unvisited attempt.2.1, if_neg fun attempt => ?_]
      exact absurd attempt.2.1 (by omega)
    · have unvisited : ¬ c.place < visits.length := by omega
      rw [if_neg, if_neg fun attempt => unvisited attempt.2.1]
      rintro ⟨caller, -, admitted⟩
      rw [admits_append charged (Nat.le_of_eq here.symm)] at admitted
      exact apart c ⟨charged, caller, here, admitted⟩
    · have before := c.clock_lt_place
      rw [reading_append (by omega), admits_append charged (Nat.le_of_lt after)]
      simp only [List.length_append, List.length_singleton, after, Nat.lt_succ_of_lt after]

namespace Charging

theorem admission_before (charging : Charging request visits axis cell c) :
    request.admission axis cell visits = none := by
  rw [Request.admission, charging.charged, Option.bind_some,
    List.getElem?_eq_none (Nat.le_of_eq charging.here), Option.bind_none]

theorem attempt_before (charging : Charging request visits axis cell c) :
    request.attempt axis cell visits = none := by
  rw [Request.attempt, charging.charged, Option.bind_some, if_neg]
  have here := charging.here
  omega

theorem attempt_after (charging : Charging request visits axis cell c)
    (v : Input Outside × World) :
    request.attempt axis cell (visits ++ [v]) = some (reading visits c.clock) := by
  have before := c.clock_lt_place
  have here := charging.here
  rw [Request.attempt, charging.charged, Option.bind_some, if_pos, reading_append (by omega)]
  refine ⟨charging.caller, by simp; omega, ?_⟩
  rw [admits_append charging.charged (Nat.le_of_eq here.symm), charging.admitted]

theorem admission_after (charging : Charging request visits axis cell c)
    (v : Input Outside × World) :
    request.admission axis cell (visits ++ [v]) =
      if Within (v.2.memory.quota.limit axis) (reading visits c.clock) (c.units visits)
          (v.2.memory.quota.window axis cell) then
        some ⟨reading visits c.clock, c.units visits, lives v.2.history⟩
      else none := by
  have before := c.clock_lt_place
  have here := charging.here
  have fits := @Charge.fits_last visits axis c v here
  rw [Request.admission, charging.charged, Option.bind_some, fits, charging.caller, ← here,
    List.getElem?_concat_length, Option.bind_some, reading_append (by omega),
    Charge.units_append (by omega),
    admits_append charging.charged (Nat.le_of_eq here.symm), charging.admitted]
  simp

end Charging
end Sections

section Acceptance
variable {t : BusTracked} {rate : Rate} {cell : String} {k : Nat} {e : Entry}

theorem accepted_eq_some : accepted t rate cell k = some e ↔ ∃ request answer s,
    t.config.pool[k]? = some (request, some (.done (.ok answer))) ∧ request.dated = some s ∧
      s.caller = cell ∧ e = ⟨reading (t.visits k) s.clock, rate.counted request answer, 0⟩ := by
  constructor
  · intro found
    unfold accepted at found
    split at found
    · next request answer done =>
      obtain ⟨s, dated, own⟩ := Option.bind_eq_some_iff.mp found
      split at own
      · next caller => exact ⟨request, answer, s, done, dated, caller, (Option.some.inj own).symm⟩
      · cases own
    · cases found
  · rintro ⟨request, answer, s, done, dated, caller, rfl⟩
    simp [accepted, done, dated, caller]

/-- A submission is dated no later than it is written. -/
theorem written_of_dated {request : Request} {s : Dated} (dated : request.dated = some s) :
    ∃ place, request.writing = some place ∧ s.clock ≤ place := by
  unfold Request.dated at dated
  split at dated <;> cases dated <;> refine ⟨_, rfl, ?_⟩ <;> simp only [AskParams.insertion] <;> omega

theorem accepted_outside (outside : k ∉ tasks t) : accepted t rate cell k = none := by
  rw [Option.eq_none_iff_forall_ne_some]
  intro e now
  obtain ⟨_, _, _, found, -⟩ := accepted_eq_some.mp now
  exact outside (Finset.mem_range.mpr (List.getElem?_eq_some_iff.mp found).1)

theorem accepted_unanswered {request : Request} {code : Option (Process World (Input Outside) _)}
    (found : t.config.pool[k]? = some (request, code))
    (open' : ∀ answer, code ≠ some (.done (.ok answer))) : accepted t rate cell k = none := by
  rw [Option.eq_none_iff_forall_ne_some]
  intro e now
  obtain ⟨_, answer, _, done, -⟩ := accepted_eq_some.mp now
  cases done.symm.trans found
  exact open' answer rfl

section Counted
variable {request : Request} {visits : BusVisits} {answer : Answer} {axis : Axis} {s : Dated}

theorem charge_of_counted (dated : request.dated = some s)
    (positive : 0 < rate.counted request answer) (limited : rate.axis = some axis) :
    ∃ c, request.charge axis = some c ∧ c.caller = s.caller ∧ c.clock = s.clock := by
  unfold Request.dated at dated
  split at dated <;> cases dated <;> cases rate <;> cases limited <;>
    first | exact ⟨_, rfl, rfl, rfl⟩ | cases positive

theorem Charge.units_pos (c : Charge) : 0 < c.units visits := by
  unfold Charge.units
  split <;> omega

theorem counted_le (accounted : Accounted request visits answer) {c : Charge}
    (charged : request.charge axis = some c) (limited : rate.axis = some axis) :
    rate.counted request answer ≤ c.units visits := by
  have positive : 1 ≤ c.units visits := c.units_pos
  unfold Rate.counted
  split
  · exact positive
  · exact positive
  · next caller params messageId recipients =>
    obtain rfl := Option.some.inj limited
    have fanout : c.fanout = true := by
      obtain ⟨keys, _ | p⟩ := params
      · cases charged
      · obtain rfl := Option.some.inj charged
        rfl
    exact accounted.fanned messageId recipients c charged fanout rfl
  · exact positive
  · exact positive
  · cases limited
  · exact Nat.zero_le _

/-- What a call counts was charged to the window of the rate. -/
theorem admission_of_counted (accounted : Accounted request visits answer)
    (dated : request.dated = some s) (positive : 0 < rate.counted request answer)
    (limited : rate.axis = some axis) :
    ∃ e, request.admission axis s.caller visits = some e ∧ e.time = reading visits s.clock ∧
      rate.counted request answer ≤ e.units := by
  obtain ⟨c, charged, caller, clock⟩ := charge_of_counted dated positive limited
  obtain ⟨fits, admitted⟩ := accounted.fits axis c charged
  obtain ⟨v, visited⟩ : ∃ v, visits[c.place]? = some v := by
    unfold Charge.fits at fits
    cases visited : visits[c.place]? with
    | none => simp [visited] at fits
    | some v => exact ⟨v, rfl⟩
  refine ⟨⟨reading visits c.clock, c.units visits, lives v.2.history⟩, ?_, ?_, ?_⟩
  · simp [Request.admission, charged, visited, caller, fits, admitted]
  · rw [clock]
  · exact counted_le accounted charged limited

end Counted
end Acceptance

section Runs
variable {quota : QuotaConfig} {t u v : BusTracked}

/-- The window of the cell, while the daemon is up. -/
def held (t : BusTracked) (axis : Axis) (cell : String) : List Nat :=
  if t.config.up then t.config.shared.memory.quota.window axis cell else []

structure Rated (quota : QuotaConfig) (t : BusTracked) : Prop where
  configured : t.config.up = true → t.config.shared.memory.quota.config = quota
  paced : ∀ axis cell, Paced windowMs ((QuotaTracker.new quota).limit axis) (Attempted t axis cell)
    (lives t.config.shared.history) (admissions t axis cell) (tasks t) (held t axis cell)
  attached : ∀ cell, Spaced windowMs quota.attachFilesPerMin (accepted t .attachments cell) (tasks t)

theorem requested_lt {request : Request} (found : requested t k = some request) :
    k < t.config.pool.length := by
  obtain ⟨task, found, -⟩ := Option.map_eq_some_iff.mp found
  exact (List.getElem?_eq_some_iff.mp found).1

/-- Calls that are neither new nor answered, with windows as they were. -/
theorem Rated.still (holds : Rated quota u) (wider : tasks u ⊆ tasks v)
    (config : v.config.up = true → v.config.shared.memory.quota.config = quota)
    (admitted : ∀ axis cell k, admissions v axis cell k = admissions u axis cell k)
    (attempted : ∀ axis cell nowMs, Attempted u axis cell nowMs → Attempted v axis cell nowMs)
    (windows : ∀ axis cell, held v axis cell = held u axis cell)
    (life : lives v.config.shared.history = lives u.config.shared.history)
    (answered : ∀ cell k, accepted v .attachments cell k = accepted u .attachments cell k) :
    Rated quota v where
  configured := config
  paced axis cell := by
    rw [life, windows]
    exact (holds.paced axis cell).moved wider (admitted axis cell) (attempted axis cell)
  attached cell start := by
    rw [funext (answered cell), booked_widen wider fun k => accepted_outside]
    exact holds.attached cell start

section Ran

/-- A call's next section, as the books see it. -/
structure Ran (u v : BusTracked) (task : Nat) (i : Input Outside) (request : Request) : Prop where
  asked : requested u task = some request
  same : ∀ k, requested v k = requested u k
  length : v.config.pool.length = u.config.pool.length
  own : v.visits task = u.visits task ++ [(i, u.config.shared)]
  other : ∀ k, k ≠ task → v.visits k = u.visits k

variable {task : Nat} {i : Input Outside} {request : Request} {axis : Axis} {cell : String}
  {code code' : Process World (Input Outside) (Except BusError Answer)} {c : Charge}

theorem ran_of_found (found : u.config.pool[task]? = some (request, some code))
    (pool : v.config.pool = u.config.pool.set task (request, some code'))
    (visits : v.visits = Function.update u.visits task
      (u.visits task ++ [(i, u.config.shared)])) : Ran u v task i request where
  asked := by
    rw [requested, found]
    rfl
  same k := by
    unfold requested
    rw [pool]
    by_cases own : task = k
    · subst own
      rw [List.getElem?_set_self (List.getElem?_eq_some_iff.mp found).1, found]
      rfl
    · rw [List.getElem?_set_ne own]
  length := by rw [pool, List.length_set]
  own := by rw [visits, Function.update_self]
  other k away := by rw [visits, Function.update_of_ne away]

namespace Ran

theorem keys (ran : Ran u v task i request) : tasks v = tasks u := congrArg Finset.range ran.length

theorem admissions_other (ran : Ran u v task i request) {k : Nat} (away : k ≠ task) :
    admissions v axis cell k = admissions u axis cell k := by
  rw [admissions, admissions, ran.same, ran.other k away]

theorem admissions_own (ran : Ran u v task i request) : admissions v axis cell task =
    request.admission axis cell (u.visits task ++ [(i, u.config.shared)]) := by
  rw [admissions, ran.same, ran.asked, Option.bind_some, ran.own]

theorem admissions_before (ran : Ran u v task i request) :
    admissions u axis cell task = request.admission axis cell (u.visits task) := by
  rw [admissions, ran.asked, Option.bind_some]

/-- Attempts stay, and the section's own may be one more. -/
theorem attempted (ran : Ran u v task i request) (kept : ∀ nowMs,
      request.attempt axis cell (u.visits task) = some nowMs →
      request.attempt axis cell (u.visits task ++ [(i, u.config.shared)]) = some nowMs)
    (nowMs : Nat) (before : Attempted u axis cell nowMs) : Attempted v axis cell nowMs := by
  obtain ⟨k, less, attempt⟩ := before
  refine ⟨k, ran.length ▸ less, ?_⟩
  rw [ran.same]
  by_cases self : k = task
  · subst self
    rw [ran.asked, Option.bind_some] at attempt ⊢
    rw [ran.own, kept nowMs attempt]
  · rw [ran.other k self, attempt]

theorem attempted_now (ran : Ran u v task i request)
    (charging : Charging request (u.visits task) axis cell c) :
    Attempted v axis cell (reading (u.visits task) c.clock) := by
  refine ⟨task, ran.length ▸ requested_lt ran.asked, ?_⟩
  rw [ran.same, ran.asked, Option.bind_some, ran.own, charging.attempt_after]

/-- The books of a window that the section does not charge. -/
theorem paced_apart (ran : Ran u v task i request)
    (apart : ∀ c, ¬ Charging request (u.visits task) axis cell c)
    (paced : Paced windowMs limit (Attempted u axis cell) life (admissions u axis cell) (tasks u)
      window) :
    Paced windowMs limit (Attempted v axis cell) life (admissions v axis cell) (tasks v) window := by
  rw [ran.keys]
  refine paced.moved (Finset.Subset.refl _) (fun k => ?_) (ran.attempted fun nowMs attempt => ?_)
  · by_cases self : k = task
    · subst self
      rw [ran.admissions_own, ran.admissions_before, admission_next apart]
    · exact ran.admissions_other self
  · rw [attempt_next apart, attempt]

/-- The books of a window that the section charges. -/
theorem paced_charging (ran : Ran u v task i request) {window : List Nat} {limit : Nat}
    (charging : Charging request (u.visits task) axis cell c)
    (same : u.config.shared.memory.quota.window axis cell = window)
    (bound : u.config.shared.memory.quota.limit axis = limit)
    (paced : Paced windowMs limit (Attempted u axis cell) (lives u.config.shared.history)
      (admissions u axis cell) (tasks u) window)
    (recalled : Within limit (reading (u.visits task) c.clock) (c.units (u.visits task)) window →
      ∀ j e, admissions u axis cell j = some e → Recalled windowMs (Attempted u axis cell)
        (lives u.config.shared.history) (reading (u.visits task) c.clock) e) :
    Paced windowMs limit (Attempted v axis cell) (lives u.config.shared.history)
      (admissions v axis cell) (tasks v)
      (charge limit (reading (u.visits task) c.clock) (c.units (u.visits task)) window) := by
  have again : ∀ nowMs, Attempted u axis cell nowMs → Attempted v axis cell nowMs := by
    apply ran.attempted
    intro nowMs attempt
    cases charging.attempt_before.symm.trans attempt
  have before := ran.admissions_before.trans charging.admission_before
  have after := ran.admissions_own.trans (charging.admission_after _)
  rw [same, bound] at after
  obtain ⟨old, split, stale⟩ := prune_drops (reading (u.visits task) c.clock) window
  rw [ran.keys, charge]
  by_cases room : Within limit (reading (u.visits task) c.clock) (c.units (u.visits task)) window
  · rw [if_pos room] at after ⊢
    have counted := recalled room
    rw [split] at paced
    exact paced.admitted stale again (ran.attempted_now charging)
      (Finset.mem_range.mpr (requested_lt ran.asked)) before after
      (fun _ => ran.admissions_other) room counted
  · rw [if_neg room] at after ⊢
    have still : admissions v axis cell = admissions u axis cell := by
      funext k
      by_cases self : k = task
      · rw [self, after, before]
      · exact ran.admissions_other self
    rw [split] at paced
    rw [still]
    exact paced.refused stale again (ran.attempted_now charging)

end Ran

variable [Platform]

theorem Rated.paced_ran (holds : Rated quota u) (fit : Unhurried quota u (.run task i))
    (up : u.config.up = true) (up' : v.config.up = true) (ran : Ran u v task i request)
    (moved : Effect request (u.visits task) u.config.shared v.config.shared) (axis : Axis)
    (cell : String) :
    Paced windowMs ((QuotaTracker.new quota).limit axis) (Attempted v axis cell)
      (lives v.config.shared.history) (admissions v axis cell) (tasks v) (held v axis cell) := by
  have paced := holds.paced axis cell
  rw [held, if_pos up] at paced
  rw [held, if_pos up', moved.life]
  by_cases charging : ∃ c, Charging request (u.visits task) axis cell c
  · obtain ⟨c, charging⟩ := charging
    have limit : u.config.shared.memory.quota.limit axis = (QuotaTracker.new quota).limit axis :=
      QuotaTracker.limit_of_config (holds.configured up)
    have window := moved.charged axis c charging.charged charging.here charging.admitted
    rw [charging.caller, limit] at window
    rw [window]
    refine ran.paced_charging charging rfl limit paced fun room j e admitted => ?_
    obtain ⟨_, asked, -⟩ := Option.bind_eq_some_iff.mp admitted
    have remembers := (fit request ran.asked).1 (axis, c) (Table.mem_of_lookup charging.charged)
      charging.here charging.admitted
    rw [charging.caller, limit] at remembers
    exact remembers room j (requested_lt asked) e admitted
  · have apart : ∀ c, ¬ Charging request (u.visits task) axis cell c :=
      fun c here => charging ⟨c, here⟩
    have window : v.config.shared.memory.quota.window axis cell =
        u.config.shared.memory.quota.window axis cell := by
      rcases moved.spared axis cell with still | ⟨c, charged, caller, here, admitted⟩
      · exact still
      · exact absurd ⟨charged, caller, here, admitted⟩ (apart c)
    rw [window]
    exact ran.paced_apart apart paced

/-- An answer that accepts file references comes where there is room for them. -/
theorem Rated.attached_ran (holds : Rated quota u) (fit : Unhurried quota u (.run task i))
    (found : u.config.pool[task]? = some (request, some code))
    (stepped : code.step i u.config.shared = some (code', w'))
    (along : code'.Along (fun visits _ w w' => Effect request visits w w')
      (endsIn (fun _ _ => True) (Accounted request)) (u.visits task ++ [(i, u.config.shared)]))
    (pool : v.config.pool = u.config.pool.set task (request, some code'))
    (ran : Ran u v task i request) (cell : String) :
    Spaced windowMs quota.attachFilesPerMin (accepted v .attachments cell) (tasks v) := by
  have before : accepted u .attachments cell task = none := by
    apply accepted_unanswered found
    rintro answer same
    obtain rfl := Option.some.inj same
    simp [Process.step] at stepped
  have others : ∀ k, k ≠ task →
      accepted v .attachments cell k = accepted u .attachments cell k := by
    intro k away
    rw [accepted, accepted, pool, List.getElem?_set_ne (Ne.symm away), ran.other k away]
  rw [ran.keys]
  cases entered : accepted v .attachments cell task with
  | none =>
    have still : accepted v .attachments cell = accepted u .attachments cell := by
      funext k
      by_cases self : k = task
      · rw [self, entered, before]
      · exact others k self
    rw [still]
    exact holds.attached cell
  | some e =>
    have inside := requested_lt ran.asked
    refine (holds.attached cell).enter (Finset.mem_range.mpr inside) before entered others
      fun positive => ?_
    obtain ⟨request', answer, s, done, dated, caller, rfl⟩ := accepted_eq_some.mp entered
    rw [pool, List.getElem?_set_self inside] at done
    obtain ⟨rfl, code⟩ := Prod.mk.inj (Option.some.inj done)
    obtain rfl := Option.some.inj code
    have accounted : Accounted request (u.visits task ++ [(i, u.config.shared)]) answer := along
    obtain ⟨place, writing, -⟩ := written_of_dated dated
    have written := accounted.written place writing
    rw [List.length_append, List.length_singleton] at written
    simp only [Rate.counted, dated, Option.any_some] at positive ⊢
    split at positive
    · next carries =>
      have room := (fit request ran.asked).2 s dated (by rintro none; simp [none] at carries)
        ⟨place, writing, by omega⟩
      rw [if_pos carries, ran.own, ← caller]
      exact room
    · cases positive

end Ran

/-- No submission is accepted without a section. -/
theorem accepted_called [Platform] {request : Request} (rate : Rate) (cell : String)
    (pool : v.config.pool = u.config.pool ++
      [(request, some (service.program u.config.pool.length request))]) :
    accepted v rate cell u.config.pool.length = none := by
  rw [Option.eq_none_iff_forall_ne_some]
  intro e entered
  obtain ⟨request', answer, s, done, dated, -⟩ := accepted_eq_some.mp entered
  rw [pool, List.getElem?_concat_length] at done
  obtain ⟨rfl, code⟩ := Prod.mk.inj (Option.some.inj done)
  have accounted := program_does u.config.pool.length request
  rw [Option.some.inj code] at accounted
  obtain ⟨place, writing, -⟩ := written_of_dated dated
  exact Nat.not_lt_zero place (Accounted.written accounted place writing)

/-- A crash takes no answer back. -/
theorem accepted_crashed [Platform] (i : Input Outside) (rate : Rate) (cell : String) (k : Nat) :
    accepted ⟨service.crashed i u.config, u.visits⟩ rate cell k = accepted u rate cell k := by
  simp only [accepted, System.crashed, List.getElem?_map]
  rcases u.config.pool[k]? with _ | ⟨request, _ | ⟨answer⟩ | ⟨ready, act, next⟩⟩ <;> rfl

/-- A new call has visited nothing yet. -/
theorem Rated.called [Platform] {request : Request} (holds : Rated quota u)
    (up : u.config.up = true) (same : v.config.shared = u.config.shared) (up' : v.config.up = true)
    (pool : v.config.pool = u.config.pool ++
      [(request, some (service.program u.config.pool.length request))])
    (visits : v.visits = u.visits) (unvisited : u.visits u.config.pool.length = []) :
    Rated quota v := by
  have length : v.config.pool.length = u.config.pool.length + 1 := by
    rw [pool, List.length_append, List.length_singleton]
  have wider : tasks u ⊆ tasks v := by
    apply Finset.range_mono
    rw [length]
    exact Nat.le_succ _
  have asked : ∀ k, requested v k = requested u k ∨ k = u.config.pool.length := by
    intro k
    unfold requested
    rw [pool]
    rcases Nat.lt_trichotomy k u.config.pool.length with less | same | more
    · exact .inl (by rw [List.getElem?_append_left less])
    · exact .inr same
    · exact .inl (by rw [List.getElem?_eq_none (by simp; omega), List.getElem?_eq_none (by omega)])
  have outside : requested u u.config.pool.length = none := by
    rw [requested, List.getElem?_eq_none (Nat.le_refl _)]
    rfl
  refine holds.still wider (fun _ => ?_) ?_ ?_ ?_ ?_ ?_
  · rw [same]
    exact holds.configured up
  · intro axis cell k
    rw [admissions, admissions, visits]
    rcases asked k with before | rfl
    · rw [before]
    · rw [unvisited, outside]
      cases requested v u.config.pool.length with
      | none => rfl
      | some request => exact admission_unvisited
  · rintro axis cell nowMs ⟨k, less, attempt⟩
    refine ⟨k, by omega, ?_⟩
    rw [visits]
    rcases asked k with before | rfl
    · rw [before, attempt]
    · exact absurd less (Nat.lt_irrefl _)
  · intro axis cell
    rw [held, held, up, up', same]
  · rw [same]
  · intro cell k
    rw [accepted, accepted, visits]
    rcases Nat.lt_trichotomy k u.config.pool.length with less | rfl | more
    · rw [pool, List.getElem?_append_left less]
    · rw [List.getElem?_eq_none (Nat.le_refl u.config.pool.length)]
      have none := accepted_called .attachments cell pool
      rwa [accepted, visits] at none
    · rw [pool, List.getElem?_eq_none (by simp; omega), List.getElem?_eq_none (by omega)]

theorem Rated.beside [Platform] (holds : Rated quota u) (up : v.config.up = u.config.up)
    (pool : v.config.pool = u.config.pool) (visits : v.visits = u.visits)
    (moved : v.config.shared = u.config.shared ∨ Aside u.config.shared v.config.shared) :
    Rated quota v := by
  have quota' : v.config.shared.memory.quota = u.config.shared.memory.quota := by
    rcases moved with same | aside
    · rw [same]
    · exact aside.quota
  have life : lives v.config.shared.history = lives u.config.shared.history := by
    rcases moved with same | aside
    · rw [same]
    · exact aside.life
  have same : ∀ k, requested v k = requested u k := fun k => by rw [requested, pool, requested]
  refine holds.still ?_ ?_ ?_ ?_ ?_ life ?_
  · rw [tasks, tasks, pool]
  · rw [up, quota']
    exact holds.configured
  · intro axis cell k
    rw [admissions, same, visits, admissions]
  · rintro axis cell nowMs ⟨k, less, attempt⟩
    refine ⟨k, by rwa [pool], ?_⟩
    rw [same, visits, attempt]
  · intro axis cell
    rw [held, held, up, quota']
  · intro cell k
    rw [accepted, accepted, pool, visits]

/-- A restart empties the windows. -/
theorem Rated.crashed [Platform] {i : Input Outside} (holds : Rated quota u)
    (fit : Unhurried quota u (.crash i)) :
    Rated quota ⟨service.crashed i u.config, u.visits⟩ := by
  have asked : ∀ k, requested ⟨service.crashed i u.config, u.visits⟩ k = requested u k := by
    intro k
    simp only [requested, System.crashed, List.getElem?_map, Option.map_map]
    rfl
  have life : lives (restart i u.config.shared).1.history = lives u.config.shared.history + 1 := by
    simp [restart, lives, List.countP_cons, Mark.isRestart]
  have empty : ∀ axis cell, (restart i u.config.shared).1.memory.quota.window axis cell = [] := by
    intro axis cell
    cases axis <;> rfl
  refine ⟨fun up => ?_, fun axis cell => ?_, fun cell => ?_⟩
  · obtain ⟨start, started⟩ := Option.isSome_iff_exists.mp (show i.outside.start.isSome from up)
    have loaded : (restart i u.config.shared).1.memory.quota.config = start.quota := by
      simp only [restart, started, Option.getD_some]
      rfl
    exact loaded.trans (fit start started)
  · have none : held ⟨service.crashed i u.config, u.visits⟩ axis cell = [] := by
      rw [held]
      split
      · exact empty axis cell
      · rfl
    rw [none]
    refine ((holds.paced axis cell).restarted ?_).moved ?_ ?_ ?_
    · exact Nat.lt_of_lt_of_eq (Nat.lt_succ_self _) life.symm
    · simp [tasks, System.crashed]
    · intro k
      rw [admissions, asked, admissions]
    · rintro nowMs ⟨k, less, attempt⟩
      refine ⟨k, by simpa [System.crashed] using less, ?_⟩
      rw [asked]
      exact attempt
  · rw [show tasks ⟨service.crashed i u.config, u.visits⟩ = tasks u by simp [tasks, System.crashed],
      funext (accepted_crashed i .attachments cell)]
    exact holds.attached cell

theorem rated_kept [Platform] : System.Kept service
    (fun _ request visits _ w w' => Effect request visits w w')
    (fun _ request => endsIn (fun _ _ => True) (Accounted request)) Aside (Unhurried quota)
    (Rated quota) where
  called _ _ _ holds up same up' pool visits unvisited :=
    holds.called up same up' pool visits unvisited
  ran u v task i request code code' holds fit up found stepped moved along up' pool visits := by
    have ran := ran_of_found found pool visits
    refine ⟨fun _ => moved.config.trans (holds.configured up), holds.paced_ran fit up up' ran moved,
      holds.attached_ran fit found stepped along pool ran⟩
  beside _ _ holds up pool visits moved := holds.beside up pool visits moved
  crashed _ _ holds fit := holds.crashed fit

/-- In a run in which no window forgets what still counts, and file references are
accepted where the missing check would let them, every cell stays within all its ceilings. -/
theorem rates_bounded [Platform] {t : BusTracked}
    (run : service.Follows (Unhurried quota) (System.dormant w).tracked t) (rate : Rate)
    (cell : String) : Spaced windowMs (rate.ceiling quota) (accepted t rate cell) (tasks t) := by
  have none : ∀ axis cell k, admissions (System.dormant w).tracked axis cell k = none := by
    intro axis cell k
    rfl
  have rated : Rated quota t := by
    refine kept_run rated_kept ⟨fun up => (by cases up), fun axis cell => ?_, fun cell => ?_⟩ run
    · exact Paced.empty (none axis cell)
    · exact spaced_empty fun _ => rfl
  have standing := System.Standing.follows program_does (System.standing_tracked (System.dormant w)) run
  cases limited : rate.axis with
  | none =>
    cases rate with
    | attachments => exact rated.attached cell
    | _ => cases limited
  | some axis =>
    have ceiling : (QuotaTracker.new quota).limit axis = rate.ceiling quota := by
      cases rate <;> cases limited <;> rfl
    intro start
    refine Nat.le_trans (booked_le ?_) (ceiling ▸ (rated.paced axis cell).spaced start)
    intro k e found within positive
    obtain ⟨request, answer, s, done, dated, rfl, rfl⟩ := accepted_eq_some.mp found
    have accounted : Accounted request (t.visits k) answer :=
      standing.tasks k request _ (Nat.zero_le k) done
    obtain ⟨e, admitted, time, fewer⟩ := admission_of_counted accounted dated positive limited
    refine ⟨e, ?_, by rwa [time], fewer⟩
    rw [admissions, requested, done]
    exact admitted

end Runs
section Sample

/-- The clock does not go back. -/
def Forward (t : BusTracked) : Move (Input Outside) Request Event → Prop
  | .run _ i => ∀ k < t.config.pool.length, ∀ v ∈ t.visits k, clockOf v ≤ i.clock.headD 0
  | _ => True

instance (t : BusTracked) : ∀ action, Decidable (Forward t action)
  | .run .. => by dsimp only [Forward]; infer_instance
  | .call _ | .main _ | .event _ | .crash _ => instDecidableTrue

instance (t : BusTracked) (axis : Axis) (cell : String) (life now : Nat) (e : Entry) :
    Decidable (Recalled windowMs (Attempted t axis cell) life now e) := by
  have attempts : (∀ k < t.config.pool.length, ∀ nowMs ∈ ((requested t k).bind fun request =>
      request.attempt axis cell (t.visits k)), nowMs < e.time + windowMs) ↔
      ∀ nowMs, Attempted t axis cell nowMs → nowMs < e.time + windowMs :=
    ⟨fun all nowMs ⟨k, less, attempt⟩ => all k less nowMs attempt,
      fun all k less nowMs attempt => all nowMs ⟨k, less, attempt⟩⟩
  unfold Recalled
  exact @instDecidableOr _ _ _ (@instDecidableAnd _ _ _ (decidable_of_iff _ attempts))

instance (quota : QuotaConfig) (t : BusTracked) : ∀ action, Decidable (Unhurried quota t action)
  | .run .. | .crash _ => by dsimp only [Unhurried, Remembers, Attaches]; infer_instance
  | .call _ | .main _ | .event _ => instDecidableTrue

/-- A cell may carry file references once a minute. -/
def oneAttachment : QuotaConfig := { QuotaConfig.default with attachFilesPerMin := 1 }

/-- A whole call of `cell_send` with a file reference. -/
def attaching (task secs : Nat) (key : String) : List (Move (Input Outside) Request Event) :=
  .call (.send "coder" ⟨["to", "body", "file_refs", "idempotency_key"],
    .ok ⟨"reviewer", "see there", ["notes.md"], some key, none, none⟩⟩) :: sections task 9 secs

/-- Once a minute, and a broadcast in between. -/
def spacedAttachments : List (Move (Input Outside) Request Event) :=
  startWith { sampleStart with quota := oneAttachment } :: attaching 0 1783242000 "k1" ++
    .call (.broadcast "coder" ⟨["body"], .ok ⟨"hello", [], none, none, none⟩⟩) ::
    sections 1 6 1783242030 ++ attaching 2 1783242060 "k2"

theorem rates_bounded_spaced : ∃ t : BusTracked,
    sampleService.Follows (Unhurried oneAttachment) (System.dormant blankWorld).tracked t ∧
    booked (fun _ => True) (accepted t .attachments "coder") (tasks t) = 2 ∧
    booked (fun _ => True) (accepted t .units "coder") (tasks t) = 4 ∧
    Spaced windowMs 1 (accepted t .attachments "coder") (tasks t) := by
  let _ := Platform.sample
  have ran : (sampleService.tracks (System.dormant blankWorld).tracked spacedAttachments).map
      (fun t => decide (booked (fun _ => True) (accepted t .attachments "coder") (tasks t) = 2 ∧
        booked (fun _ => True) (accepted t .units "coder") (tasks t) = 4)) = some true := by
    decide +kernel
  have fitting : System.decideFits (Unhurried oneAttachment) sampleService
      (System.dormant blankWorld).tracked spacedAttachments = true := by decide +kernel
  obtain ⟨t, run, facts⟩ := Option.map_eq_some_iff.mp ran
  obtain ⟨two, four⟩ := of_decide_eq_true facts
  have follows := System.follows_of_tracks run fitting
  exact ⟨t, follows, two, four, rates_bounded follows .attachments "coder"⟩

/-- Two submissions with file references are accepted in the same second. -/
theorem attachments_exceed_ceiling : ∃ t : BusTracked,
    sampleService.Follows Forward (System.dormant blankWorld).tracked t ∧
    t.config.shared.memory.quota.config.attachFilesPerMin = 1 ∧
    booked (fun e => 1783242000000 ≤ e.time ∧ e.time < 1783242000000 + windowMs)
      (accepted t .attachments "coder") (tasks t) = 2 := by
  let _ := Platform.sample
  have ran : (sampleService.tracks (System.dormant blankWorld).tracked
      (startWith { sampleStart with quota := oneAttachment } ::
        (attaching 0 1783242000 "k1" ++ attaching 1 1783242000 "k2"))).map (fun t => decide (
          t.config.shared.memory.quota.config.attachFilesPerMin = 1 ∧
          booked (fun e => 1783242000000 ≤ e.time ∧ e.time < 1783242000000 + windowMs)
            (accepted t .attachments "coder") (tasks t) = 2)) = some true := by decide +kernel
  have fitting : System.decideFits Forward sampleService (System.dormant blankWorld).tracked
      (startWith { sampleStart with quota := oneAttachment } ::
        (attaching 0 1783242000 "k1" ++ attaching 1 1783242000 "k2")) = true := by decide +kernel
  obtain ⟨t, run, facts⟩ := Option.map_eq_some_iff.mp ran
  exact ⟨t, System.follows_of_tracks run fitting, of_decide_eq_true facts⟩

end Sample
end Crewd.Bus
