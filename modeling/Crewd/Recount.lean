import Crewd.Windows

/-! The rate limiter against a recount of all it has accepted. A call is one attempt to
charge a key; the limiter keeps a pruned deque for each key, the recount looks at every
accepted call of the key within the last minute. -/
namespace Crewd

/-- A call of one of the two charging operations. -/
inductive QuotaCall where
  | sender (cell : String) (nowMs fanoutUnits : Nat)
  | capability (cell : String) (cap : Capability) (nowMs : Nat)
deriving DecidableEq

namespace QuotaCall

def key : QuotaCall → Axis × String
  | sender cell _ _ => (.sender, cell)
  | capability cell cap _ => (.capability cap, cell)

def nowMs : QuotaCall → Nat
  | sender _ nowMs _ | capability _ _ nowMs => nowMs

def units : QuotaCall → Nat
  | sender _ _ fanoutUnits => fanoutUnits
  | capability _ _ _ => 1

end QuotaCall

/-- The ceiling of a key; most capabilities have none. -/
def QuotaConfig.ceiling (config : QuotaConfig) : Axis → Option Nat
  | .sender => some config.senderPerMin
  | .capability cap => (QuotaTracker.new config).capabilityCeiling cap

namespace QuotaTracker

def call (quota : QuotaTracker) : QuotaCall → Except BusError Unit × QuotaTracker
  | .sender cell nowMs fanoutUnits => quota.noteAndCheckSender cell nowMs fanoutUnits
  | .capability cell cap nowMs => quota.noteAndCheckCapability cell cap nowMs

def after (quota : QuotaTracker) : List QuotaCall → QuotaTracker
  | [] => quota
  | call :: later => (quota.call call).2.after later

def accepts (quota : QuotaTracker) (call : QuotaCall) : Bool := (quota.call call).1.isOk

/-- The calls that are accepted, each at its place. -/
def accepted (quota : QuotaTracker) : List QuotaCall → List QuotaCall
  | [] => []
  | call :: later =>
    let rest := (quota.call call).2.accepted later
    if quota.accepts call then call :: rest else rest

end QuotaTracker

/-- The units that the calls have charged to the key in the minute up to now. -/
def recount (key : Axis × String) (nowMs : Nat) (calls : List QuotaCall) : Nat :=
  ((calls.filter fun call =>
    call.key = key ∧ nowMs < call.nowMs + windowMs ∧ call.nowMs ≤ nowMs).map (·.units)).sum

/-- There is room for the call beside the recounted units. -/
def Fits (config : QuotaConfig) (calls : List QuotaCall) (call : QuotaCall) : Prop :=
  ∀ ceiling, config.ceiling call.key.1 = some ceiling →
    recount call.key call.nowMs calls + call.units ≤ ceiling

/-- Calls in the order of a clock that does not go back. -/
def InOrder (calls : List QuotaCall) : Prop := calls.Pairwise (·.nowMs ≤ ·.nowMs)

section Pruning
variable {earlier nowMs : Nat} {window more : List Nat}

/-- What was pruned earlier would be pruned now. -/
theorem prune_prune_append (order : earlier ≤ nowMs) :
    prune nowMs (prune earlier window ++ more) = prune nowMs (window ++ more) := by
  induction window with
  | nil => rfl
  | cons front later ih =>
    by_cases old : earlier - front ≥ windowMs
    · have older : nowMs - front ≥ windowMs := by omega
      simp only [prune, if_pos old, List.cons_append, if_pos older]
      exact ih
    · simp only [prune, if_neg old]

theorem prune_prune (order : earlier ≤ nowMs) :
    prune nowMs (prune earlier window) = prune nowMs window := by
  have appended : prune nowMs (prune earlier window ++ []) = prune nowMs (window ++ []) :=
    prune_prune_append order
  rwa [List.append_nil, List.append_nil] at appended

/-- From a window in order, pruning takes all that is too old. -/
theorem prune_eq_filter (order : window.Pairwise (· ≤ ·)) (past : ∀ time ∈ window, time ≤ nowMs) :
    prune nowMs window = window.filter fun time => nowMs < time + windowMs := by
  induction window with
  | nil => rfl
  | cons front later ih =>
    obtain ⟨least, order⟩ := List.pairwise_cons.mp order
    have before := past front List.mem_cons_self
    by_cases old : nowMs - front ≥ windowMs
    · have gone : ¬ nowMs < front + windowMs := by omega
      rw [prune, if_pos old, List.filter_cons_of_neg (by simpa using gone)]
      exact ih order fun time inside => past time (List.mem_cons_of_mem _ inside)
    · have all : ∀ time ∈ front :: later, decide (nowMs < time + windowMs) = true := by
        intro time inside
        rcases List.mem_cons.mp inside with rfl | inside
        · exact decide_eq_true (by omega)
        · have above := least time inside
          exact decide_eq_true (by omega)
      rw [prune, if_neg old, List.filter_eq_self.mpr all]

end Pruning

section Keys
variable {quota : QuotaTracker} {call : QuotaCall} {axis : Axis} {cell : String} {ceiling : Nat}

theorem capabilityCeiling_of_config {cap : Capability} :
    quota.capabilityCeiling cap = quota.config.ceiling (.capability cap) := rfl

theorem limit_of_ceiling (limited : quota.config.ceiling axis = some ceiling) :
    quota.limit axis = ceiling := by
  cases axis with
  | sender => exact Option.some.inj limited
  | capability cap =>
    rw [QuotaTracker.limit, capabilityCeiling_of_config, limited]
    rfl

theorem call_config : (quota.call call).2.config = quota.config := by
  cases call with
  | sender cell nowMs units => exact quota.noteAndCheckSender_config cell nowMs units
  | capability cell cap nowMs => exact quota.noteAndCheckCapability_config cell cap nowMs

/-- A call of a limited key is accepted when its units fit into the window. -/
theorem accepts_iff (limited : quota.config.ceiling call.key.1 = some ceiling) :
    quota.accepts call = true ↔
      Within ceiling call.nowMs call.units (quota.window call.key.1 call.key.2) := by
  have isOk : ∀ r : Except BusError Unit, r.isOk = true ↔ r = .ok () := by
    rintro (_ | _) <;> simp [Except.isOk, Except.toBool]
  rw [QuotaTracker.accepts, isOk, ← limit_of_ceiling limited]
  cases call with
  | sender cell nowMs units => exact QuotaTracker.noteAndCheckSender_ok_iff
  | capability cell cap nowMs => exact QuotaTracker.noteAndCheckCapability_ok_iff limited

theorem accepts_of_unlimited (free : quota.config.ceiling call.key.1 = none) :
    quota.accepts call = true := by
  cases call with
  | sender cell nowMs units => cases free
  | capability cell cap nowMs =>
    have passed : quota.noteAndCheckCapability cell cap nowMs = (.ok (), quota) :=
      quota.noteAndCheckCapability_unlimited free
    rw [QuotaTracker.accepts, QuotaTracker.call, passed]
    rfl

/-- A call moves the window of its own key only, as one charge. -/
theorem call_window (limited : quota.config.ceiling axis = some ceiling) :
    (quota.call call).2.window axis cell =
      if call.key = (axis, cell) then
        charge ceiling call.nowMs call.units (quota.window axis cell)
      else quota.window axis cell := by
  cases call with
  | sender own nowMs units =>
    rw [QuotaTracker.call, QuotaTracker.window_noteAndCheckSender]
    by_cases same : axis = .sender ∧ own = cell
    · obtain ⟨rfl, rfl⟩ := same
      cases limited
      rw [if_pos ⟨rfl, rfl⟩]
      exact (if_pos rfl).symm
    · have other : (QuotaCall.sender own nowMs units).key ≠ (axis, cell) := by
        intro keys
        obtain ⟨rfl, rfl⟩ := Prod.mk.inj keys
        exact same ⟨rfl, rfl⟩
      rw [if_neg same, if_neg other]
  | capability own cap nowMs =>
    rw [QuotaTracker.call]
    cases limited' : quota.capabilityCeiling cap with
    | none =>
      rw [QuotaTracker.noteAndCheckCapability_unlimited limited']
      by_cases same : (QuotaCall.capability own cap nowMs).key = (axis, cell)
      · obtain ⟨rfl, rfl⟩ := Prod.mk.inj same
        cases limited'.symm.trans limited
      · rw [if_neg same]
    | some ceiling' =>
      rw [QuotaTracker.window_noteAndCheckCapability limited']
      by_cases same : axis = .capability cap ∧ own = cell
      · obtain ⟨rfl, rfl⟩ := same
        rw [if_pos ⟨rfl, rfl⟩, limit_of_ceiling limited]
        exact (if_pos rfl).symm
      · have other : (QuotaCall.capability own cap nowMs).key ≠ (axis, cell) := by
          intro keys
          obtain ⟨rfl, rfl⟩ := Prod.mk.inj keys
          exact same ⟨rfl, rfl⟩
        rw [if_neg same, if_neg other]

end Keys

section Exact
variable {config : QuotaConfig} {quota : QuotaTracker} {calls more : List QuotaCall} {call : QuotaCall}
  {key : Axis × String} {nowMs : Nat}

/-- The times of the units that the calls have charged to the key. -/
def charges (key : Axis × String) (calls : List QuotaCall) : List Nat :=
  calls.flatMap fun call => if call.key = key then List.replicate call.units call.nowMs else []

theorem charges_append : charges key (calls ++ more) = charges key calls ++ charges key more :=
  List.flatMap_append

theorem mem_charges {time : Nat} (inside : time ∈ charges key calls) :
    ∃ call ∈ calls, call.nowMs = time := by
  obtain ⟨call, listed, charged⟩ := List.mem_flatMap.mp inside
  split at charged
  · exact ⟨call, listed, (List.eq_of_mem_replicate charged).symm⟩
  · cases charged

theorem charges_in_order (order : InOrder calls) : (charges key calls).Pairwise (· ≤ ·) := by
  induction calls with
  | nil => exact List.Pairwise.nil
  | cons call later ih =>
    obtain ⟨least, order⟩ := List.pairwise_cons.mp order
    have split : charges key ([call] ++ later) = charges key [call] ++ charges key later :=
      charges_append
    rw [List.singleton_append] at split
    rw [split, List.pairwise_append]
    refine ⟨?_, ih order, ?_⟩
    · simp only [charges, List.flatMap_cons, List.flatMap_nil, List.append_nil]
      split
      · exact List.pairwise_replicate.mpr (.inr (Nat.le_refl _))
      · exact List.Pairwise.nil
    · intro time inside time' inside'
      obtain ⟨own, listed, rfl⟩ := mem_charges inside
      obtain ⟨other, listed', rfl⟩ := mem_charges inside'
      rw [List.mem_singleton.mp listed]
      exact least other listed'

/-- Counting what a recount looks at is pruning the charges. -/
theorem length_prune_charges (order : InOrder calls) (past : ∀ call ∈ calls, call.nowMs ≤ nowMs) :
    (prune nowMs (charges key calls)).length = recount key nowMs calls := by
  rw [prune_eq_filter (charges_in_order order) fun time inside => by
    obtain ⟨call, listed, rfl⟩ := mem_charges inside
    exact past call listed]
  clear order
  induction calls with
  | nil => rfl
  | cons call later ih =>
    have rest := ih fun call inside => past call (List.mem_cons_of_mem _ inside)
    have before := past call List.mem_cons_self
    have split : charges key ([call] ++ later) = charges key [call] ++ charges key later :=
      charges_append
    rw [List.singleton_append] at split
    rw [split, List.filter_append, List.length_append, rest]
    simp only [charges, List.flatMap_cons, List.flatMap_nil, List.append_nil, recount]
    by_cases same : call.key = key
    · by_cases counts : nowMs < call.nowMs + windowMs
      · simp [same, counts, before]
      · simp [same, counts]
    · simp [same]

/-- For every limited key, the deque and the charges of the accepted calls are the same
after pruning, from the last call on. -/
def Exact (quota : QuotaTracker) (calls : List QuotaCall) (last : Nat) : Prop :=
  ∀ axis cell ceiling, quota.config.ceiling axis = some ceiling → ∀ nowMs, last ≤ nowMs →
    prune nowMs (quota.window axis cell) = prune nowMs (charges (axis, cell) calls)

theorem exact_new : Exact (.new config) [] 0 := by
  intro axis cell ceiling _ nowMs _
  cases axis <;> rfl

theorem Exact.later {last : Nat} (tracks : Exact quota calls last) (later : last ≤ nowMs) :
    Exact quota calls nowMs :=
  fun axis cell ceiling limited time after =>
    tracks axis cell ceiling limited time (Nat.le_trans later after)

/-- One call, with the accepted calls before it. -/
theorem Exact.step {last : Nat} (tracks : Exact quota calls last) (later : last ≤ call.nowMs) :
    Exact (quota.call call).2 (calls ++ if quota.accepts call then [call] else []) call.nowMs := by
  intro axis cell ceiling limited nowMs after
  rw [call_config] at limited
  have here := tracks axis cell ceiling limited call.nowMs later
  rw [call_window limited, charges_append]
  by_cases same : call.key = (axis, cell)
  · rw [if_pos same, charge]
    have decides : quota.accepts call = true ↔
        Within ceiling call.nowMs call.units (quota.window call.key.1 call.key.2) :=
      accepts_iff (by rw [same]; exact limited)
    rw [same] at decides
    by_cases fits : Within ceiling call.nowMs call.units (quota.window axis cell)
    · rw [if_pos fits, if_pos (decides.mpr fits), here, prune_prune_append after]
      simp [charges, same]
    · rw [if_neg fits, if_neg fun accepts => fits (decides.mp accepts), here, prune_prune after]
      simp [charges]
  · have none : charges (axis, cell) (if quota.accepts call then [call] else []) = [] := by
      split <;> simp [charges, same]
    rw [if_neg same, none, List.append_nil]
    exact tracks axis cell ceiling limited nowMs (Nat.le_trans later after)

theorem accepted_append : quota.accepted (calls ++ more) =
    quota.accepted calls ++ (quota.after calls).accepted more := by
  induction calls generalizing quota with
  | nil => rfl
  | cons call later ih =>
    simp only [List.cons_append, QuotaTracker.accepted, QuotaTracker.after, ih]
    split <;> rfl

theorem accepted_sublist : (quota.accepted calls).Sublist calls := by
  induction calls generalizing quota with
  | nil => exact List.Sublist.refl _
  | cons call later ih =>
    simp only [QuotaTracker.accepted]
    split
    · exact ih.cons_cons call
    · exact ih.cons call

theorem after_config : (quota.after calls).config = quota.config := by
  induction calls generalizing quota with
  | nil => rfl
  | cons call later ih => exact ih.trans call_config

theorem Exact.after {past : List QuotaCall} {last : Nat} (tracks : Exact quota past last)
    (order : InOrder calls) (later : ∀ call ∈ calls, last ≤ call.nowMs)
    (before : ∀ call ∈ calls, call.nowMs ≤ nowMs) (passed : last ≤ nowMs) :
    Exact (quota.after calls) (past ++ quota.accepted calls) nowMs := by
  induction calls generalizing quota past last with
  | nil => simpa [QuotaTracker.after, QuotaTracker.accepted] using tracks.later passed
  | cons call rest ih =>
    obtain ⟨least, order⟩ := List.pairwise_cons.mp order
    have next := ih (tracks.step (later call List.mem_cons_self)) order least
      (fun call inside => before call (List.mem_cons_of_mem _ inside)) (before call List.mem_cons_self)
    have same : (past ++ if quota.accepts call then [call] else []) ++
        (quota.call call).2.accepted rest = past ++ quota.accepted (call :: rest) := by
      simp only [QuotaTracker.accepted]
      split <;> simp
    rw [same] at next
    exact next

/-- After calls in order, the next one is accepted exactly when the recount has room. -/
theorem accepts_iff_fits (order : InOrder (calls ++ [call])) :
    ((QuotaTracker.new config).after calls).accepts call = true ↔
      Fits config ((QuotaTracker.new config).accepted calls) call := by
  obtain ⟨order, _, past⟩ := List.pairwise_append.mp order
  have past : ∀ earlier ∈ calls, earlier.nowMs ≤ call.nowMs := fun earlier inside =>
    past earlier inside call (List.mem_singleton_self call)
  have same : ((QuotaTracker.new config).after calls).config = config := after_config
  cases limited : config.ceiling call.key.1 with
  | none =>
    constructor
    · intro _ ceiling found
      cases limited.symm.trans found
    · exact fun _ => accepts_of_unlimited (by rw [same]; exact limited)
  | some ceiling =>
    have fresh : Exact (.new config) [] 0 := exact_new
    have tracks := fresh.after order (fun _ _ => Nat.zero_le _) past (Nat.zero_le _)
    have known := tracks call.key.1 call.key.2 ceiling (by rw [same]; exact limited) call.nowMs
      (Nat.le_refl _)
    have sublist : ((QuotaTracker.new config).accepted calls).Sublist calls := accepted_sublist
    have ceiled : ((QuotaTracker.new config).after calls).config.ceiling call.key.1 = some ceiling := by
      rw [same]
      exact limited
    rw [accepts_iff ceiled, Within, known, List.nil_append,
      length_prune_charges (order.sublist sublist) fun earlier inside =>
        past earlier (sublist.subset inside)]
    constructor
    · intro room ceiling' found
      cases limited.symm.trans found
      exact room
    · exact fun fits => fits ceiling limited

/-- Limiters that both account for the same accepted calls decide alike from then on. -/
theorem accepted_eq {quota' : QuotaTracker} {past : List QuotaCall} {last : Nat}
    (same : quota'.config = quota.config) (tracks : Exact quota past last)
    (tracks' : Exact quota' past last) (order : InOrder calls)
    (later : ∀ call ∈ calls, last ≤ call.nowMs) : quota'.accepted calls = quota.accepted calls := by
  induction calls generalizing quota quota' past last with
  | nil => rfl
  | cons call rest ih =>
    obtain ⟨least, order⟩ := List.pairwise_cons.mp order
    have after := later call List.mem_cons_self
    have alike : quota'.accepts call = quota.accepts call := by
      cases limited : quota.config.ceiling call.key.1 with
      | none => rw [accepts_of_unlimited limited, accepts_of_unlimited (by rw [same]; exact limited)]
      | some ceiling =>
        have limited' : quota'.config.ceiling call.key.1 = some ceiling := by rw [same]; exact limited
        rw [Bool.eq_iff_iff, accepts_iff limited, accepts_iff limited', Within, Within,
          tracks _ _ _ limited _ after, tracks' _ _ _ limited' _ after]
    have step' := tracks'.step after
    rw [alike] at step'
    have configs : (quota'.call call).2.config = (quota.call call).2.config :=
      call_config.trans (same.trans call_config.symm)
    simp only [QuotaTracker.accepted, alike, ih configs (tracks.step after) step' order least]

end Exact

section Apart
variable {quota quota' : QuotaTracker} {call : QuotaCall} {key : Axis × String}

/-- The two limiters say the same about the key. -/
structure AgreeOn (key : Axis × String) (quota quota' : QuotaTracker) : Prop where
  config : quota'.config = quota.config
  window : ∀ ceiling, quota.config.ceiling key.1 = some ceiling →
    quota'.window key.1 key.2 = quota.window key.1 key.2

theorem AgreeOn.accepts (agree : AgreeOn call.key quota quota') :
    quota'.accepts call = quota.accepts call := by
  cases limited : quota.config.ceiling call.key.1 with
  | none => rw [accepts_of_unlimited limited, accepts_of_unlimited (by rw [agree.config]; exact limited)]
  | some ceiling =>
    have limited' : quota'.config.ceiling call.key.1 = some ceiling := by
      rw [agree.config]
      exact limited
    rw [Bool.eq_iff_iff, accepts_iff limited, accepts_iff limited', agree.window ceiling limited]

/-- Both take a call. -/
theorem AgreeOn.step (agree : AgreeOn key quota quota') :
    AgreeOn key (quota.call call).2 (quota'.call call).2 := by
  constructor
  · exact call_config.trans (agree.config.trans call_config.symm)
  · intro ceiling limited
    rw [call_config] at limited
    have limited' : quota'.config.ceiling key.1 = some ceiling := by
      rw [agree.config]
      exact limited
    rw [call_window limited, call_window limited', agree.window ceiling limited]

/-- One of them takes a call for another key. -/
theorem AgreeOn.aside (agree : AgreeOn key quota quota') (other : call.key ≠ key) :
    AgreeOn key (quota.call call).2 quota' := by
  constructor
  · exact agree.config.trans call_config.symm
  · intro ceiling limited
    rw [call_config] at limited
    rw [call_window limited, if_neg other]
    exact agree.window ceiling limited

theorem AgreeOn.after {calls : List QuotaCall} (agree : AgreeOn key quota quota') :
    AgreeOn key (quota.after calls) (quota'.after (calls.filter (·.key = key))) := by
  induction calls generalizing quota quota' with
  | nil => exact agree
  | cons call rest ih =>
    by_cases same : call.key = key
    · rw [List.filter_cons_of_pos (by simpa using same)]
      exact ih agree.step
    · rw [List.filter_cons_of_neg (by simpa using same)]
      exact ih (agree.aside same)

end Apart

/-- A call is accepted exactly when the recount of its key has room for its units. A call
that is not accepted counts for nothing later, and only calls of the same key count. -/
theorem sliding_window_exact {config : QuotaConfig} {before later : List QuotaCall}
    {call : QuotaCall} (order : InOrder (before ++ call :: later)) :
    let quota := QuotaTracker.new config
    ((quota.after before).accepts call = true ↔ Fits config (quota.accepted before) call) ∧
    ((quota.after before).accepts call = false →
      quota.accepted (before ++ call :: later) = quota.accepted (before ++ later)) ∧
    (quota.after before).accepts call =
      (quota.after (before.filter (·.key = call.key))).accepts call := by
  intro quota
  have first : InOrder (before ++ [call]) :=
    order.sublist (List.Sublist.append_left (List.singleton_sublist.mpr List.mem_cons_self) before)
  refine ⟨accepts_iff_fits first, fun refused => ?_, ?_⟩
  · obtain ⟨earlier, rest, apart⟩ := List.pairwise_append.mp order
    obtain ⟨least, rest⟩ := List.pairwise_cons.mp rest
    have fresh : Exact (.new config) [] 0 := exact_new
    have tracks := fresh.after earlier (fun _ _ => Nat.zero_le _)
      (fun c inside => apart c inside call List.mem_cons_self) (Nat.zero_le _)
    have step := tracks.step (Nat.le_refl _)
    rw [refused, if_neg Bool.false_ne_true, List.append_nil] at step
    have same := accepted_eq call_config tracks step rest least
    rw [accepted_append, accepted_append, QuotaTracker.accepted, if_neg (by simp [quota, refused]), same]
  · have agree : AgreeOn call.key quota quota := ⟨rfl, fun _ _ => rfl⟩
    exact agree.after.accepts.symm

/-- A sender at the ceiling, who has room again after a minute. -/
theorem sliding_window_exact_filled :
    let quota := QuotaTracker.new .default
    let before : List QuotaCall := [.sender "coder" 0 59, .capability "coder" .ask 0]
    let call : QuotaCall := .sender "coder" 1 2
    let later : List QuotaCall := [.sender "coder" 59999 2, .sender "coder" 60000 2]
    quota.accepted (before ++ call :: later) = before ++ [.sender "coder" 60000 2] ∧
    ¬ Fits .default (quota.accepted before) call ∧
    quota.accepted (before ++ call :: later) = quota.accepted (before ++ later) := by
  intro quota before call later
  have order : InOrder (before ++ call :: later) := by
    simp only [InOrder, before, call, later]
    decide
  have refused : (quota.after before).accepts call = false := by decide +kernel
  obtain ⟨decides, dropped, _⟩ := @sliding_window_exact .default _ _ _ order
  refine ⟨by decide +kernel, fun fits => ?_, dropped refused⟩
  rw [decides.mpr fits] at refused
  cases refused

end Crewd
