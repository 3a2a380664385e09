import Crewd.Bus.Outcomes
import Crewd.Bus.Soundness

/-! Backoff between attempts. The source shifts the base by the number of attempts and
checks the shift only, not the bits it drops; the delay that it schedules is the one it
documents exactly where no bit that counts is dropped. -/
namespace Crewd.Bus
open Autocommit Concurrent Table

section Delay
variable {base cap number earlier : Nat}

/-- The delay before the next attempt, without its jitter. -/
def retryDelay (base cap number : Nat) : Int := asI64 (min cap (backoffExp base number))

/-- `min(cap, base*2^(attempts-1))`. -/
def exactDelay (base cap number : Nat) : Nat := min cap (base * 2 ^ (number - 1))

/-- From the first attempt on the shift is its number less one. -/
theorem backoffExp_of_pos (counted : 0 < number) (bounded : number < 2 ^ 32) :
    backoffExp base number =
      if number - 1 < 64 then base * 2 ^ (number - 1) % 2 ^ 64 else u64Max := by
  have shift : (number + (2 ^ 32 - 1)) % 2 ^ 32 = number - 1 := by omega
  rw [backoffExp, shift]

/-- The shift drops no bit, or leaves at least the cap; a shift of 64 or more counts as
unbounded, as it is for every base but zero. -/
def ShiftKeeps (base cap number : Nat) : Prop :=
  if number - 1 < 64 then
    base * 2 ^ (number - 1) < 2 ^ 64 ∨ cap ≤ base * 2 ^ (number - 1) % 2 ^ 64
  else 0 < base ∨ cap = 0

theorem asI64_of_lt {n : Nat} (small : n < 2 ^ 63) : asI64 n = n := by
  rw [asI64, BitVec.toInt_eq_toNat_cond, BitVec.toNat_ofNat, Nat.mod_eq_of_lt (by omega),
    if_pos (by omega)]

theorem retryDelay_eq (capped : cap < 2 ^ 62) :
    retryDelay base cap number = (min cap (backoffExp base number) : Nat) :=
  asI64_of_lt (Nat.lt_of_le_of_lt (Nat.min_le_left _ _) (by omega))

/-- A far shift of a base that is not zero is beyond any cap. -/
theorem shifted_large (positive : 0 < base) (far : ¬ number - 1 < 64) :
    2 ^ 64 ≤ base * 2 ^ (number - 1) :=
  calc 2 ^ 64 ≤ 2 ^ (number - 1) := Nat.pow_le_pow_right (by decide) (by omega)
    _ ≤ base * 2 ^ (number - 1) := Nat.le_mul_of_pos_left _ positive

theorem retryDelay_exact_iff (capped : cap < 2 ^ 62) (counted : 0 < number)
    (bounded : number < 2 ^ 32) :
    retryDelay base cap number = exactDelay base cap number ↔ ShiftKeeps base cap number := by
  rw [retryDelay_eq capped, Int.ofNat_inj, exactDelay, backoffExp_of_pos counted bounded, ShiftKeeps]
  split
  · generalize base * 2 ^ (number - 1) = shifted
    omega
  · rename_i far
    rcases Nat.eq_zero_or_pos base with rfl | positive
    · simp [u64Max]
    · have large := shifted_large positive far
      generalize base * 2 ^ (number - 1) = shifted at large
      have unbounded : u64Max = 2 ^ 64 - 1 := rfl
      omega

/-- An earlier attempt never waits longer than the exact delay of a later one. -/
theorem retryDelay_le_exact (capped : cap < 2 ^ 62) (keeps : ShiftKeeps base cap number)
    (counted : 0 < earlier) (before : earlier ≤ number) (bounded : number < 2 ^ 32) :
    retryDelay base cap earlier ≤ exactDelay base cap number := by
  rw [retryDelay_eq capped, Int.ofNat_le, exactDelay,
    backoffExp_of_pos counted (Nat.lt_of_le_of_lt before bounded)]
  split
  · have grows : base * 2 ^ (earlier - 1) ≤ base * 2 ^ (number - 1) :=
      Nat.mul_le_mul_left base (Nat.pow_le_pow_right (by decide) (by omega))
    have drops := Nat.mod_le (base * 2 ^ (earlier - 1)) (2 ^ 64)
    omega
  · have far : ¬ number - 1 < 64 := by omega
    rw [ShiftKeeps, if_neg far] at keeps
    rcases keeps with positive | rfl
    · have large := shifted_large positive far
      omega
    · rw [Nat.zero_min]
      exact Nat.zero_le _

end Delay
section Retries
variable {w : World} {messageId recipient : String} {d : Delivery}
  {maxAttempts base cap attempts : Nat}

/-- What a counted failure leaves of the row, when its statements do not fail. -/
theorem recordAttemptFailure_row (clear : Faultless 2 w)
    (found : w.store.delivery messageId recipient = some d) :
    ((recordAttemptFailure messageId recipient maxAttempts base cap).exec w).2.store.delivery
      messageId recipient =
        some (d.retried maxAttempts base cap (w.peekMs / 1000) w.input.outside.jitter d) := by
  obtain ⟨_, ⟨clock, faults, rfl⟩, done⟩ :=
    recordAttemptFailure_faultless clear found maxAttempts base cap
  rw [done]
  refine delivery_touched found fun row => ?_
  obtain ⟨_, id, address⟩ := d.retried_keeps maxAttempts base cap (w.peekMs / 1000)
    w.input.outside.jitter row
  rw [Delivery.is, Delivery.is, id, address]

/-- What a call does to the row of a delivery that has been tried this often: it fails at
the last attempt, and else is due after the documented delay, which is no shorter than that
of an earlier attempt. -/
structure Retried (maxAttempts base cap attempts : Nat) : Prop where
  counted : ∀ (w : World) messageId recipient d, Faultless 2 w →
    w.store.delivery messageId recipient = some d → d.attempts = attempts →
    ∃ row, ((recordAttemptFailure messageId recipient maxAttempts base cap).exec w).2.store.delivery
        messageId recipient = some row ∧ row.attempts = attempts + 1 ∧
      (row.state = .failed ↔ maxAttempts ≤ attempts + 1) ∧
      (attempts + 1 < maxAttempts → row.state = .queued ∧ row.nextRetryAt =
        (w.peekMs / 1000 : Nat) + exactDelay base cap (attempts + 1) +
          if w.input.outside.jitter then 1 else 0)
  grows : attempts + 1 < maxAttempts → ∀ earlier ≤ attempts,
    retryDelay base cap (earlier + 1) ≤ retryDelay base cap (attempts + 1)

/-- A row tried this often, alone in the store. -/
def triedWorld (attempts : Nat) : World :=
  { blankWorld with store := { Store.empty with
    deliveries := [⟨"m1", "ops", .claimed, attempts, none, 0⟩] } }

theorem nextAttempts_of_lt (bounded : attempts + 1 < 2 ^ 32) :
    nextAttempts attempts = attempts + 1 :=
  Nat.mod_eq_of_lt bounded

theorem Delivery.retried_attempts (maxAttempts base cap now : Nat) (jitter : Bool)
    (row : Delivery) :
    (d.retried maxAttempts base cap now jitter row).attempts = nextAttempts d.attempts := by
  unfold Delivery.retried
  split
  · rfl
  · rfl

/-- A sum that does not fit a `u32` is not the count that is stored. -/
theorem Retried.bounded (retried : Retried maxAttempts base cap attempts) :
    attempts + 1 < 2 ^ 32 := by
  have clear : Faultless 2 (triedWorld attempts) := rfl
  have found : (triedWorld attempts).store.delivery "m1" "ops" =
      some ⟨"m1", "ops", .claimed, attempts, none, 0⟩ := rfl
  obtain ⟨row, left, counted, _⟩ := retried.counted _ _ _ _ clear found rfl
  rw [recordAttemptFailure_row clear found, Option.some.injEq] at left
  rw [← left, Delivery.retried_attempts, nextAttempts] at counted
  omega

/-- A retry keeps the documented schedule exactly when its number fits the counter, and it
is the last one or the shift keeps what counts. -/
theorem retried_iff (capped : cap < 2 ^ 62) : Retried maxAttempts base cap attempts ↔
    attempts + 1 < 2 ^ 32 ∧
      (attempts + 1 < maxAttempts → ShiftKeeps base cap (attempts + 1)) := by
  constructor
  · intro retried
    have bounded := retried.bounded
    have next := nextAttempts_of_lt bounded
    refine ⟨bounded, fun more => ?_⟩
    have clear : Faultless 2 (triedWorld attempts) := rfl
    have found : (triedWorld attempts).store.delivery "m1" "ops" =
        some ⟨"m1", "ops", .claimed, attempts, none, 0⟩ := rfl
    obtain ⟨row, left, _, _, due⟩ := retried.counted _ _ _ _ clear found rfl
    rw [recordAttemptFailure_row clear found, Option.some.injEq] at left
    have waits := (due more).2
    rw [← left, Delivery.retried, if_neg (by rw [next]; exact Nat.not_le.mpr more), next] at waits
    have same : retryDelay base cap (attempts + 1) = exactDelay base cap (attempts + 1) := by
      simp only [Int.add_assoc, Int.add_right_inj] at waits
      exact (Int.add_left_inj _).mp waits
    exact (retryDelay_exact_iff capped (Nat.succ_pos _) bounded).mp same
  · rintro ⟨bounded, keeps⟩
    have next := nextAttempts_of_lt bounded
    constructor
    · rintro w messageId recipient d clear found rfl
      refine ⟨_, recordAttemptFailure_row clear found, ?_⟩
      by_cases spent : d.attempts + 1 ≥ maxAttempts
      · rw [Delivery.retried, next, if_pos spent]
        exact ⟨rfl, iff_of_true rfl spent, fun more => absurd more (Nat.not_lt.mpr spent)⟩
      · rw [Delivery.retried, next, if_neg spent]
        have exact' := (retryDelay_exact_iff capped (Nat.succ_pos _) bounded).mpr
          (keeps (Nat.lt_of_not_le spent))
        refine ⟨rfl, iff_of_false (fun failed => by cases failed) spent, fun _ => ⟨rfl, ?_⟩⟩
        rw [← exact']
        rfl
    · intro more earlier before
      rw [(retryDelay_exact_iff capped (Nat.succ_pos _) bounded).mpr (keeps more)]
      exact retryDelay_le_exact capped (keeps more) (Nat.succ_pos _) (Nat.succ_le_succ before)
        bounded

theorem retried_first : Retried 10 1 60 0 :=
  (retried_iff (by decide)).mpr ⟨by decide, fun _ => by
    rw [ShiftKeeps]
    decide⟩

/-- With a base of two seconds the sixty-fourth attempt is followed by the next at once. -/
theorem shift_loses_delay :
    ¬ ∀ maxAttempts base cap attempts, base < 2 ^ 62 → cap < 2 ^ 62 →
      attempts + 1 < 2 ^ 32 → Retried maxAttempts base cap attempts := by
  intro always
  have retried := always 100 2 60 63 (by decide) (by decide) (by decide)
  have grows := retried.grows (by decide) 0 (by decide)
  exact absurd grows (by decide)

end Retries
end Crewd.Bus
