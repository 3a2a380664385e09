import Crewd.Lib.History
import Crewd.Bus.Service

/-! What the recorded passages of the deliveries say: the state a row was left in,
which messages were enqueued in which order, and what the loop is about to do. -/
namespace Crewd.Bus
open Concurrent

def Mark.passage : Mark → Option Passage
  | .passed passage => some passage
  | _ => none

/-- The passages of a history, the latest first. -/
def passages (history : List Mark) : List Passage := history.filterMap Mark.passage

@[simp] theorem passages_passed (passage : Passage) (history : List Mark) :
    passages (.passed passage :: history) = passage :: passages history := rfl

@[simp] theorem passages_append (first second : List Mark) :
    passages (first ++ second) = passages first ++ passages second := List.filterMap_append

theorem passages_map_passed (moves : List Passage) : passages (moves.map .passed) = moves := by
  induction moves with
  | nil => rfl
  | cons passage rest ih => simp [ih]

/-- What looks past passages looks past all of them. -/
theorem look_passed {α : Type} {look : List Mark → α}
    (past : ∀ passage earlier, look (.passed passage :: earlier) = look earlier)
    (moves : List Passage) (history : List Mark) :
    look (moves.map .passed ++ history) = look history := by
  induction moves with
  | nil => rfl
  | cons passage rest ih => exact (past passage _).trans ih

/-- The state that the row of a delivery was left in. -/
def stateOf (messageId recipient : String) : List Passage → Option DeliveryState
  | [] => none
  | .moved _ m r _ after :: earlier =>
    if m = messageId ∧ r = recipient then some after else stateOf messageId recipient earlier
  | .enqueued env r :: earlier =>
    if env.messageId = messageId ∧ r = recipient then some .queued
    else stateOf messageId recipient earlier
  | _ :: earlier => stateOf messageId recipient earlier

def Passage.enqueue : Passage → Option (Envelope × String)
  | .enqueued env recipient => some (env, recipient)
  | _ => none

/-- The enqueued messages with their recipients, the latest first. -/
def enqueues (passed : List Passage) : List (Envelope × String) :=
  passed.filterMap Passage.enqueue

/-- The passage that the present batch of row updates follows. -/
def opening (cause : Cause) : List Passage → Option Passage
  | [] => none
  | .moved other m r before after :: earlier =>
    if other = cause then opening cause earlier else some (.moved other m r before after)
  | passage :: _ => some passage

/-- A sweep at a time past the message's expiry ran after it was enqueued. -/
def Swept (env : Envelope) (recipient : String) : List Passage → Prop
  | [] => False
  | .swept now :: earlier =>
    (env.expiresAt ≤ now ∧ (env, recipient) ∈ enqueues earlier) ∨ Swept env recipient earlier
  | _ :: earlier => Swept env recipient earlier

/-- The first message was enqueued for the recipient before the second. -/
def Precedes (first second : Envelope) (recipient : String) (passed : List Passage) : Prop :=
  ∃ later before, enqueues passed = later ++ (second, recipient) :: before ∧
    (first, recipient) ∈ before

section Loop

def Passage.isClaiming : Passage → Bool
  | .claiming _ _ => true
  | _ => false

/-- What was held back when the present batch was claimed. -/
def heldNow : List Passage → List (String × String)
  | [] => []
  | .claiming _ held :: _ => held
  | _ :: earlier => heldNow earlier

def sinceClaiming (passed : List Passage) : List Passage :=
  passed.takeWhile fun passage => !passage.isClaiming

/-- Where a row is left by an outcome whose statements do not fail. -/
def Delivery.after (row : Delivery) (maxAttempts : Nat) : DeliveryOutcome → DeliveryState
  | .notReady => row.state
  | .transientFailure => if nextAttempts row.attempts ≥ maxAttempts then .failed else .queued
  | outcome =>
    if transitionAllowed row.state (outcomeToState outcome) then outcomeToState outcome
    else row.state

def DeliveryState.settled (state : DeliveryState) : Bool := !(state = .queued ∨ state = .claimed)

/-- The row of the delivery was left settled. -/
def SettledIn (messageId recipient : String) (passed : List Passage) : Prop :=
  (stateOf messageId recipient passed).any (·.settled) = true

instance : Decidable (SettledIn messageId recipient passed) := inferInstanceAs (Decidable (_ = _))

/-- An outcome that was applied and left its row settled. -/
def Passage.final : Passage → Bool
  | .applying _ _ outcome (some row) maxAttempts failing =>
    !failing && (row.after maxAttempts outcome).settled
  | _ => false

def Passage.applies (messageId recipient : String) : Passage → Bool
  | .applying m r _ _ _ _ => m = messageId ∧ r = recipient
  | _ => false

/-- The outcome that the loop applied last. -/
def lastApplying : List Passage → Option Passage
  | [] => none
  | .applying m r outcome row maxAttempts failing :: _ =>
    some (.applying m r outcome row maxAttempts failing)
  | _ :: earlier => lastApplying earlier

/-- How the outcome applied last has moved its row. -/
def lastMove : List Passage → Option (String × String × DeliveryState × DeliveryState)
  | [] => none
  | .moved .outcome m r before after :: _ | .moved .retried m r before after :: _ =>
    some (m, r, before, after)
  | .applying .. :: _ => none
  | _ :: earlier => lastMove earlier

end Loop

section Moves

/-- The passages of an update that touches these rows. -/
def moveMarks (cause : Cause) (f : Delivery → Delivery) (rows : List Delivery) : List Passage :=
  rows.map fun d => .moved cause d.envelopeId d.recipient d.state (f d).state

variable {cause : Cause} {p : Delivery → Bool} {f : Delivery → Delivery} {rows : List Delivery}
  {passed : List Passage}

theorem moveRows_history (w : World) : (moveRows cause p f w).history =
    (moveMarks cause f (w.store.deliveries.filter p)).map .passed ++ w.history := by
  rw [moveMarks, List.map_map]
  rfl

@[simp] theorem passages_moveRows (w : World) : passages (moveRows cause p f w).history =
    moveMarks cause f (w.store.deliveries.filter p) ++ passages w.history := by
  rw [moveRows_history, passages_append, passages_map_passed]

def Passage.isMove : Passage → Bool
  | .moved .. => true
  | _ => false

/-- What looks past passages of a kind looks past all of them. -/
theorem skip_all {α : Type} {look : List Passage → α} {kind : Passage → Bool} {more : List Passage}
    (past : ∀ passage earlier, kind passage = true → look (passage :: earlier) = look earlier)
    (only : ∀ passage ∈ more, kind passage = true) : look (more ++ passed) = look passed := by
  induction more with
  | nil => rfl
  | cons passage rest ih =>
    exact (past passage _ (only passage List.mem_cons_self)).trans
      (ih fun x h => only x (List.mem_cons_of_mem _ h))

/-- An update of a row for this cause. -/
def Passage.movedBy (cause : Cause) : Passage → Bool
  | .moved other .. => other = cause
  | _ => false

theorem Passage.isMove_of_movedBy {passage : Passage} (moved : passage.movedBy cause = true) :
    passage.isMove = true := by
  cases passage with
  | moved other m r before after => rfl
  | _ => cases moved

theorem movedBy_moveMarks : ∀ mark ∈ moveMarks cause f rows, mark.movedBy cause = true := by
  intro mark member
  obtain ⟨d, _, rfl⟩ := List.mem_map.mp member
  simp [Passage.movedBy]

theorem opening_moves {moves : List Passage} (only : ∀ mark ∈ moves, mark.movedBy cause = true) :
    opening cause (moves ++ passed) = opening cause passed := by
  refine skip_all (fun passage earlier moved => ?_) only
  cases passage with
  | moved other m r before after =>
    simp only [Passage.movedBy, decide_eq_true_eq] at moved
    simp [opening, moved]
  | _ => cases moved

theorem isMove_moveMarks : ∀ mark ∈ moveMarks cause f rows, mark.isMove = true := by
  intro mark member
  obtain ⟨d, _, rfl⟩ := List.mem_map.mp member
  rfl

section Skip
variable {moves : List Passage} (only : ∀ mark ∈ moves, mark.isMove = true)
include only

theorem skip_moves {α : Type} {look : List Passage → α}
    (skip : ∀ cause m r before after earlier,
      look (.moved cause m r before after :: earlier) = look earlier) :
    look (moves ++ passed) = look passed := by
  refine skip_all (fun passage earlier moved => ?_) only
  cases passage with
  | moved cause m r before after => exact skip cause m r before after earlier
  | _ => cases moved

theorem enqueues_moves : enqueues (moves ++ passed) = enqueues passed :=
  skip_moves only fun _ _ _ _ _ _ => rfl

theorem swept_moves : Swept env recipient (moves ++ passed) = Swept env recipient passed :=
  skip_moves only fun _ _ _ _ _ _ => rfl

theorem heldNow_moves : heldNow (moves ++ passed) = heldNow passed :=
  skip_moves only fun _ _ _ _ _ _ => rfl

theorem lastApplying_moves : lastApplying (moves ++ passed) = lastApplying passed :=
  skip_moves only fun _ _ _ _ _ _ => rfl

theorem sinceClaiming_moves :
    sinceClaiming (moves ++ passed) = moves ++ sinceClaiming passed := by
  induction moves with
  | nil => rfl
  | cons mark rest ih =>
    have first := only mark List.mem_cons_self
    cases mark with
    | moved cause m r before after =>
      exact congrArg (_ :: ·) (ih fun x h => only x (List.mem_cons_of_mem _ h))
    | _ => cases first

end Skip

/-- The row of a delivery is the last to move it, when no two rows share a key. -/
theorem stateOf_moved (once : (rows.map fun d => (d.envelopeId, d.recipient)).Nodup)
    (member : d ∈ rows) :
    stateOf d.envelopeId d.recipient (moveMarks cause f rows ++ passed) = some (f d).state := by
  induction rows with
  | nil => cases member
  | cons row rest ih =>
    obtain ⟨absent, once⟩ := List.nodup_cons.mp once
    rcases List.mem_cons.mp member with rfl | inside
    · simp [moveMarks, stateOf]
    · have apart : ¬ (row.envelopeId = d.envelopeId ∧ row.recipient = d.recipient) := by
        intro same
        exact absent (List.mem_map.mpr ⟨d, inside, by simp [same]⟩)
      simpa [moveMarks, stateOf, apart] using ih once inside

theorem stateOf_unmoved
    (apart : ∀ d ∈ rows, ¬ (d.envelopeId = messageId ∧ d.recipient = recipient)) :
    stateOf messageId recipient (moveMarks cause f rows ++ passed) =
      stateOf messageId recipient passed := by
  induction rows with
  | nil => rfl
  | cons row rest ih =>
    have first := apart row List.mem_cons_self
    simpa [moveMarks, stateOf, first] using ih fun d h => apart d (List.mem_cons_of_mem _ h)

end Moves
end Crewd.Bus
