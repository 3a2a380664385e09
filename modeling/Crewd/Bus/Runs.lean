import Crewd.Courses
import Crewd.Bus.Soundness

/-! Rules for statements about runs: a step either leaves the deliveries and their
passages alone, or it is one of four changes, and what every step keeps holds in
every reachable state. -/
namespace Crewd.Bus
open Autocommit Concurrent History

/-- A step as the deliveries see it. -/
inductive Change (self : Actor) (w : World) : World → Prop where
  | still : w'.store.deliveries = w.store.deliveries → passages w'.history = passages w.history →
      Change self w w'
  | moved : Moves self w cause p f → Change self w (moveRows cause p f w)
  | enqueued (env : Envelope) (recipient : String) : env ∈ w.store.envelopes →
      (∀ d ∈ w.store.deliveries, d.is env.messageId recipient = false) →
      Admissible w env recipient →
      Change self w { w with
        store := { w.store with
          deliveries := w.store.deliveries ++ [⟨env.messageId, recipient, .queued, 0, none, 0⟩] }
        history := .passed (.enqueued env recipient) :: w.history }
  | noted (passage : Passage) : Notes self w passage →
      Change self w { w with history := .passed passage :: w.history }

abbrev BusVisits := Visits Store Memory Outside Mark

abbrev BusTracked := Tracked World (Input Outside) Request (Except BusError Answer)

section Rules
variable [Platform]

/-- A run of the daemon from before its first start. -/
abbrev Run (w : World) (t : BusTracked) : Prop :=
  service.Follows (fun _ _ => True) (System.dormant w).tracked t

theorem Statement.change (step : Statement self w w') : Change self w w' := by
  cases step with
  | quiet same => exact .still (by rw [same.store]) (by rw [same.history])
  | delivery env recipient _ known new admissible => exact .enqueued env recipient known new admissible
  | moved moves => exact .moved moves
  | noted passage notes => exact .noted passage notes
  | polled task askId _ _ _ =>
    apply Change.still <;> simp only [pollWaker, Action.exec_step] <;> split <;> rfl
  | polledAgain task askId _ _ _ =>
    apply Change.still <;> simp only [pollWakerAgain] <;> split <;> rfl
  | notified askId =>
    apply Change.still <;> simp only [notifyAsker, Action.exec_step] <;> split <;> rfl
  | _ => exact .still rfl rfl

/-- What holds of the daemon before its first start and is kept by every step. -/
theorem always {P : World → Prop} (blank : Blank w) (path : service.Reaches w c) (first : P w)
    (keeps : ∀ actor s t, Statement actor s t → Good s → P s → P t) : P c.shared :=
  lasting blank (.refl _) keeps first path

/-- The same for runs whose passages all meet a condition. -/
theorem always_where {fits : List Passage → Passage → Prop} {P : World → Prop} (blank : Blank w)
    (path : service.Reaches w c) (fitting : Each fits (passages c.shared.history)) (first : P w)
    (keeps : ∀ actor s t, Change actor s t → Good s → Each fits (passages t.history) →
      P s → P t) : P c.shared := by
  refine always (P := fun s => Each fits (passages s.history) → P s) blank path (fun _ => first)
    (fun actor s t step good holds fitting => ?_) fitting
  have earlier : Each fits (passages s.history) :=
    fitting.suffix (step.grows.history.filterMap Mark.passage)
  exact keeps actor s t step.change good fitting (holds earlier)

end Rules

section Marks
variable {fits : List Passage → Passage → Prop} {passed : List Passage}

/-- The marks of an update fit when each of its rows does, whichever of the others
were recorded before it. -/
theorem each_moves {cause : Cause} {f : Delivery → Delivery} {rows : List Delivery}
    (once : (rows.map fun d => (d.envelopeId, d.recipient)).Nodup) (each : Each fits passed)
    (row : ∀ d ∈ rows, ∀ moves, (∀ mark ∈ moves, mark.movedBy cause = true) →
      stateOf d.envelopeId d.recipient (moves ++ passed) =
        stateOf d.envelopeId d.recipient passed →
      fits (moves ++ passed) (.moved cause d.envelopeId d.recipient d.state (f d).state)) :
    Each fits (moveMarks cause f rows ++ passed) := by
  induction rows with
  | nil => exact each
  | cons d rest ih =>
    obtain ⟨absent, once⟩ := List.nodup_cons.mp once
    refine ⟨ih once fun e member => row e (List.mem_cons_of_mem _ member), ?_⟩
    refine row d List.mem_cons_self _ movedBy_moveMarks (stateOf_unmoved fun e member same => ?_)
    exact absent (List.mem_map.mpr ⟨e, member, by simp [same]⟩)

/-- What a condition says about the marks of an update. -/
theorem fits_moves {cause : Cause} {f : Delivery → Delivery} {rows : List Delivery}
    (each : Each fits (moveMarks cause f rows ++ passed)) (member : d ∈ rows) :
    ∃ before, fits before (.moved cause d.envelopeId d.recipient d.state (f d).state) :=
  each.fits_of_mem (List.mem_append_left _ (List.mem_map.mpr ⟨d, member, rfl⟩))

end Marks

section Sample

/-- A start with an adapter for the reviewer. -/
def adapterStart : Start := { sampleStart with adapters := ["reviewer"] }

def startWith (start : Start) : Move (Input Outside) Request Event :=
  .crash ⟨[], [], ⟨false, .notReady, false, some start⟩⟩

/-- Moves of the delivery loop; an adapter that is asked answers with the outcome. -/
def loopMoves (count secs : Nat) (outcome : DeliveryOutcome) :
    List (Move (Input Outside) Request Event) :=
  List.replicate count (.main ⟨[secs * 1000], [], ⟨false, outcome, false, none⟩⟩)

/-- A whole call of `cell_send`. -/
def sending (task : Nat) (caller toCell key : String) (secs : Nat) :
    List (Move (Input Outside) Request Event) :=
  .call (.send caller ⟨["to", "body", "idempotency_key"],
    .ok ⟨toCell, "ping", [], some key, none, none⟩⟩) :: sections task 8 secs

/-- A call of `cell_ask`. -/
def asking (caller toCell key : String) : Move (Input Outside) Request Event :=
  .call (.ask caller ⟨["to", "body", "idempotency_key"], .ok ⟨toCell, "ping", [], some key, none⟩⟩)

/-- A whole call of `cell_inbox`. -/
def pulling (task : Nat) (caller : String) (secs : Nat) :
    List (Move (Input Outside) Request Event) :=
  .call (.inbox caller ⟨[], .ok ⟨none⟩⟩) :: sections task 2 secs

/-- A whole call of `cell_broadcast`. -/
def broadcasting (task : Nat) (caller key : String) (secs : Nat) :
    List (Move (Input Outside) Request Event) :=
  .call (.broadcast caller ⟨["body", "idempotency_key"],
    .ok ⟨"ping", [], some key, none, none⟩⟩) :: sections task 6 secs

/-- The adapter of the reviewer is offered a message; its outcome is still to be applied. -/
def offeredPing (outcome : DeliveryOutcome) : List (Move (Input Outside) Request Event) :=
  startWith adapterStart :: sending 0 "coder" "reviewer" "k1" 1783242000 ++
    loopMoves 7 1783242001 outcome

end Sample
end Crewd.Bus
