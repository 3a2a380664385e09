import Crewd.Bus.Pending
import Crewd.Bus.Replies

/-! What a refusal costs. A full window turns a submission away uncharged, but the checks
come one after another and each has charged by the time a later one refuses: only what the
queue depth or the sender's own window turns away leaves the budget as it was. -/
namespace Crewd.Bus
open Autocommit Concurrent

section Windows

/-- The same units count: what has gone from the window was a minute old. -/
def SameUnits (nowMs : Nat) (window window' : List Nat) : Prop :=
  ∃ old, window = old ++ window' ∧ ∀ time ∈ old, time + windowMs ≤ nowMs

variable {nowMs ceiling units : Nat} {window window' old : List Nat}

theorem SameUnits.refl : SameUnits nowMs window window :=
  ⟨[], rfl, fun _ member => by cases member⟩

theorem SameUnits.shorter (same : SameUnits nowMs window window') : window'.length ≤ window.length := by
  obtain ⟨old, split, _⟩ := same
  rw [split, List.length_append]
  exact Nat.le_add_left _ _

/-- What is a minute old is pruned off the front. -/
theorem prune_old (stale : ∀ time ∈ old, time + windowMs ≤ nowMs) :
    prune nowMs (old ++ window) = prune nowMs window := by
  induction old with
  | nil => rfl
  | cons front later ih =>
    have aged := stale front List.mem_cons_self
    have gone : nowMs - front ≥ windowMs := by omega
    rw [List.cons_append, prune, if_pos gone]
    exact ih fun time member => stale time (List.mem_cons_of_mem _ member)

/-- Nothing is pruned off what was pruned and charged at the same time. -/
theorem prune_charged :
    prune nowMs (prune nowMs window ++ List.replicate units nowMs) =
      prune nowMs window ++ List.replicate units nowMs := by
  induction window with
  | nil =>
    cases units with
    | zero => rfl
    | succ units =>
      have fresh : ¬ nowMs - nowMs ≥ windowMs := by
        rw [Nat.sub_self]
        decide
      simp only [prune, List.nil_append, List.replicate_succ, if_neg fresh]
  | cons front later ih =>
    by_cases aged : nowMs - front ≥ windowMs
    · rw [prune, if_pos aged]
      exact ih
    · rw [prune, if_neg aged, List.cons_append, prune, if_neg aged]

/-- Units that did not fit leave a window with the same units, and those that fit do not. -/
theorem charge_same_iff (some : 0 < units) :
    SameUnits nowMs window (charge ceiling nowMs units window) ↔
      ¬ Within ceiling nowMs units window := by
  constructor
  · rintro ⟨old, split, stale⟩ fits
    rw [charge, if_pos fits] at split
    have pruned : prune nowMs window = prune nowMs window ++ List.replicate units nowMs := by
      have kept : prune nowMs (old ++ (prune nowMs window ++ List.replicate units nowMs)) =
          prune nowMs (prune nowMs window ++ List.replicate units nowMs) := prune_old stale
      rwa [← split, prune_charged] at kept
    have longer := congrArg List.length pruned
    rw [List.length_append, List.length_replicate] at longer
    omega
  · intro full
    rw [charge, if_neg full]
    exact prune_drops nowMs window

end Windows

section Calls
variable {request : Request} {stages : List BusStage}

/-- What the clock said when the call read it for its charges. -/
def Request.clock (request : Request) (stages : List BusStage) : Nat :=
  (request.charge .sender).elim 0 fun c => reading (visited stages) c.clock

/-- The caller's windows hold the same units after each section of the call as before it. -/
def Request.Unspent (request : Request) (stages : List BusStage) : Prop :=
  ∀ stage ∈ stages, ∀ axis, SameUnits (request.clock stages)
    (stage.before.memory.quota.window axis request.author)
    (stage.after.memory.quota.window axis request.author)

/-- The sender's window was found without room for the units, or the call has not come so far. -/
def Request.Unfit (request : Request) (stages : List BusStage) : Prop :=
  ∀ c, request.charge .sender = some c → c.fits .sender (visited stages) = false

theorem charge_caller (charged : request.charge axis = some c) : c.caller = request.author := by
  have listed := Table.mem_of_lookup charged
  unfold Request.charges at listed
  split at listed
  · simp only [List.mem_cons, List.not_mem_nil, or_false, Prod.mk.injEq] at listed
    obtain ⟨_, rfl⟩ := listed
    rfl
  · simp only [List.mem_cons, List.not_mem_nil, or_false, Prod.mk.injEq] at listed
    rcases listed with ⟨_, rfl⟩ | ⟨_, rfl⟩
    · rfl
    · rfl
  · simp only [List.mem_cons, List.not_mem_nil, or_false, Prod.mk.injEq] at listed
    rcases listed with ⟨_, rfl⟩ | ⟨_, rfl⟩
    · rfl
    · rfl
  · cases listed

/-- A request with a charge has one for the sender. -/
theorem charge_sender (charged : request.charge axis = some c) :
    ∃ d, request.charge .sender = some d := by
  unfold Request.charge at charged ⊢
  unfold Request.charges at charged ⊢
  split at charged
  · exact ⟨_, rfl⟩
  · exact ⟨_, rfl⟩
  · exact ⟨_, rfl⟩
  · cases charged

theorem Charge.units_positive {c : Charge} {visits : BusVisits} : 0 < c.units visits := by
  unfold units
  split
  · exact Nat.lt_of_lt_of_le Nat.zero_lt_one (Nat.le_max_right _ _)
  · exact Nat.zero_lt_one

theorem Charge.inside_of_fits {c : Charge} {visits : BusVisits} (fits : c.fits axis visits = true) :
    c.place < visits.length := by
  obtain ⟨v, found, _⟩ := (Option.any_eq_true _ _).mp fits
  exact (List.getElem?_eq_some_iff.mp found).1

/-- What the charging section finds, seen from the end of the call. -/
theorem Charge.fits_here {c : Charge} {before after : List BusStage} {stage : BusStage}
    (here : (visited before).length = c.place) :
    c.fits axis (visited (before ++ stage :: after)) =
      decide (Within (stage.before.memory.quota.limit axis) (reading (visited before) c.clock)
        (c.units (visited before)) (stage.before.memory.quota.window axis c.caller)) := by
  have whole : visited (before ++ stage :: after) =
      visited before ++ [(stage.input, stage.before)] ++ visited after := by
    simp [visited]
  have inside : c.place < (visited before ++ [(stage.input, stage.before)]).length := by
    rw [List.length_append, here]
    exact Nat.lt_succ_self _
  rw [whole, fits_append inside, fits_last _ here]

/-- The clock was read before the charge. -/
theorem Request.clock_here {c : Charge} {before : List BusStage}
    (charged : request.charge axis = some c) (inside : c.clock < (visited before).length) :
    request.clock (before ++ after) = reading (visited before) c.clock := by
  obtain ⟨d, sender⟩ := charge_sender charged
  obtain ⟨_, same, _⟩ := charge_shape sender charged
  have whole : visited (before ++ after) = visited before ++ visited after := List.map_append
  rw [clock, sender, Option.elim_some, same, whole, reading_append inside]

variable [Platform]

/-- The section that charges the sender leaves the same units just when there is no room. -/
theorem Effect.charge_same_iff {before after : List BusStage} {stage : BusStage}
    (effect : Effect request (visited before) stage.before stage.after)
    (charged : request.charge axis = some c) (here : (visited before).length = c.place)
    (admitted : request.admits (visited before) axis = true) :
    SameUnits (request.clock (before ++ stage :: after))
        (stage.before.memory.quota.window axis request.author)
        (stage.after.memory.quota.window axis request.author) ↔
      c.fits axis (visited (before ++ stage :: after)) = false := by
  have inside : c.clock < (visited before).length := by
    rw [here]
    exact c.clock_lt_place
  rw [Charge.fits_here here, decide_eq_false_iff_not, Request.clock_here charged inside,
    ← charge_caller charged, effect.charged axis c charged here admitted]
  exact Crewd.Bus.charge_same_iff c.units_positive

/-- A submission that is turned away for the budget costs its caller none just when it is the
queue of the recipient or the window of the sender that has no room. -/
theorem refusal_unspent_iff
    (took : service.Took w task request stages (.error (.quota text)) d) :
    request.Unspent stages ↔ request.Unfit stages := by
  obtain ⟨effects, _⟩ := took.takes.along (program_does task request)
  constructor
  · intro unspent c charged
    cases fits : c.fits .sender (visited stages) with
    | false => rfl
    | true =>
      have inside := Charge.inside_of_fits fits
      rw [visited, List.length_map] at inside
      obtain ⟨before, stage, after, rfl, length⟩ :
          ∃ before stage after, stages = before ++ stage :: after ∧ before.length = c.place :=
        ⟨stages.take c.place, stages[c.place], stages.drop (c.place + 1),
          by rw [← List.drop_eq_getElem_cons inside, List.take_append_drop],
          List.length_take_of_le (Nat.le_of_lt inside)⟩
      have here : (visited before).length = c.place := (List.length_map _).trans length
      have same := unspent stage (List.mem_append_right _ List.mem_cons_self) .sender
      exact fits.symm.trans
        (((effects before stage after rfl).charge_same_iff charged here rfl).mp same)
  · intro unfit stage member axis
    obtain ⟨before, after, rfl⟩ := List.append_of_mem member
    have effect : Effect request (visited before) stage.before stage.after :=
      effects before stage after rfl
    rcases effect.spared axis request.author with same | ⟨c, charged, _, here, admitted⟩
    · rw [same]
      exact .refl
    rw [effect.charge_same_iff charged here admitted]
    cases axis with
    | sender => exact unfit c charged
    | capability cap =>
      obtain ⟨c', sender, fits⟩ := (Option.any_eq_true _ _).mp admitted
      have full := unfit c' sender
      have whole : visited (before ++ stage :: after) =
          visited before ++ visited (stage :: after) := List.map_append
      rw [whole, Charge.fits_append (Charge.inside_of_fits fits)] at full
      cases fits.symm.trans full

end Calls

section Sample

/-- A second question of a cell to another. -/
def secondAsk : Request :=
  .ask "coder" ⟨["to", "body"], .ok ⟨"reviewer", "ping", [], none, none⟩⟩

/-- A cell may submit one message a minute. -/
def oneMessageStart : Start :=
  { sampleStart with quota := { QuotaConfig.default with senderPerMin := 1 } }

/-- The second message within a minute is turned away, and does not count. -/
theorem refusal_unspent_sender : ∃ stages d, sampleService.Took blankWorld 1 secondAsk stages
    (.error (.quota "sender coder exceeded 1/min")) d ∧ secondAsk.Unspent stages := by
  let _ := Platform.sample
  have ran : ((sampleService.visit blankWorld 1
      (startWith oneMessageStart :: asking "coder" "reviewer" "k1" :: sections 0 9 1783242000)
      secondAsk (sections 1 6 1783242001)).map fun visit =>
        (visit.2.answer 1, Charge.fits .sender ⟨"coder", 3, 0, false⟩ (visited visit.1))) =
        some (some (.error (.quota "sender coder exceeded 1/min")), false) := by decide +kernel
  obtain ⟨⟨stages, d⟩, taken, facts⟩ := Option.map_eq_some_iff.mp ran
  obtain ⟨answered, full⟩ := Prod.mk.inj facts
  have took := System.took_of_visit taken answered
  refine ⟨stages, d, took, (refusal_unspent_iff took).mpr fun c charged => ?_⟩
  obtain rfl := Option.some.inj charged
  exact full

/-- An ask over the cap is turned away, and counts for the sender all the same. -/
theorem capped_ask_charged : ∃ stages d, sampleService.Took blankWorld 1 secondAsk stages
    (.error (.quota "pending-ask cap reached (1 open)")) d ∧ ¬ secondAsk.Unspent stages ∧
    ∃ stage ∈ stages, stage.before.memory.quota.perSender "coder" = [1783242000000] ∧
      stage.after.memory.quota.perSender "coder" = [1783242000000, 1783242001000] := by
  have ran : ((sampleService.visit blankWorld 1
      (startWith oneAskStart :: asking "coder" "reviewer" "k1" :: sections 0 9 1783242000)
      secondAsk (sections 1 9 1783242001)).map fun visit =>
        (visit.2.answer 1, visit.1.any fun stage => decide (
          stage.before.memory.quota.perSender "coder" = [1783242000000] ∧
          stage.after.memory.quota.perSender "coder" = [1783242000000, 1783242001000]))) =
        some (some (.error (.quota "pending-ask cap reached (1 open)")), true) := by
    decide +kernel
  obtain ⟨⟨stages, d⟩, taken, facts⟩ := Option.map_eq_some_iff.mp ran
  obtain ⟨answered, charged⟩ := Prod.mk.inj facts
  obtain ⟨stage, member, charged⟩ := List.any_eq_true.mp charged
  obtain ⟨before, after⟩ := of_decide_eq_true charged
  refine ⟨stages, d, System.took_of_visit taken answered, fun unspent => ?_,
    stage, member, before, after⟩
  have shorter := (unspent stage member .sender).shorter
  change (stage.after.memory.quota.perSender "coder").length ≤
    (stage.before.memory.quota.perSender "coder").length at shorter
  rw [before, after] at shorter
  exact absurd shorter (by decide)

end Sample
end Crewd.Bus
