import Crewd.Bus.Awaiting
import Crewd.Bus.Looping

/-! The bus as a whole: in every run, with any interleaving, failing statements
and crashes, each move takes elementary steps only, so the invariants hold in
every state and every await answers by what it read. -/
namespace Crewd.Bus
open Autocommit Concurrent

/-- What an answer says in the end. -/
def answers (task : Nat) : Request → Except BusError Answer → World → Prop
  | .await _ _, .ok answer, w => Answered task answer w
  | _, _, _ => True

/-- The daemon before its first start: nothing stored, nothing audited. -/
structure Blank (w : World) : Prop where
  store : w.store = .empty
  wakers : w.memory.askWakers = []
  history : w.history = []

variable [Platform]

theorem Blank.good (blank : Blank w) : Good w :=
  ⟨.initial blank.store blank.history, .initial blank.wakers blank.history,
    .initial blank.store blank.history⟩

omit [Platform] in
theorem Blank.idle (blank : Blank w) : Idle task w := by
  refine ⟨fun id => ?_, fun id => ?_, fun id => ?_⟩
  · simp [blank.history, inProgress]
  · simp [blank.history, asleep]
  · simp [Queued, Memory.wakerOrNew, Memory.waker, blank.wakers, Notify.new]

theorem handle_follows (task : Nat) (request : Request) :
    Safe Good (others Steps (.task task)) (Steps (.task task)) (answers task request)
      (service.program task request) (Idle task) := by
  have plain : ∀ {h : Handler Answer} {Q : Except BusError Answer → World → Prop},
      Plain (.task task) h → (∀ r w, Q r w) →
      Safe Good (others Steps (.task task)) (Steps (.task task)) Q h.run (Idle task) :=
    fun runs free => (Safe.weaken (fun _ _ _ => trivial) runs).post fun r w _ _ => free r w
  cases request with
  | send caller params => exact plain (handleSend_plain caller params) fun _ _ => trivial
  | ask caller params => exact plain (handleAsk_plain caller params) fun _ _ => trivial
  | reply caller params => exact plain (handleReply_plain caller params) fun _ _ => trivial
  | inbox caller params => exact plain (handleInbox_plain caller params) fun _ _ => trivial
  | broadcast caller params => exact plain (handleBroadcast_plain caller params) fun _ _ => trivial
  | reportToolCorrelation caller params =>
    exact plain (handleReportToolCorrelation_plain caller params) fun _ _ => trivial
  | opStatus caller keys => exact plain (handleOpStatus_plain caller keys) fun _ _ => trivial
  | await caller params =>
    refine Safe.post (fun r w _ holds => ?_) (handleAwait_follows caller params)
    cases r with
    | ok a => exact holds
    | error e => trivial

theorem sound : Sound service Good Steps Idle answers where
  keeps _ _ _ moved good := moved.good good
  waits k actor other w w' moved idle := by
    induction moved with
    | refl => exact idle
    | tail _ last ih => exact last.idle other ih
  lasts k request r actor other w w' moved holds := by
    cases request with
    | await caller params =>
      cases r with
      | error e => trivial
      | ok a =>
        induction moved with
        | refl => exact holds
        | tail _ last ih => exact last.answered_lasts other ih
    | _ => trivial
  program := handle_follows
  loop := Safe.bind tick_plain fun _ => Safe.pure fun _ _ _ => trivial
  happens event w w' _ happened := by
    cases event with
    | audited draft =>
      simp only [service, happens] at happened
      split at happened
      · cases happened; exact .single (.event draft)
      · cases happened
    | minted =>
      cases happened
      exact .single (.quiet ⟨rfl, rfl, rfl, rfl, Nat.le_succ _⟩)
  restarts i w _ :=
    .head (.quiet (w.quiet_install i)) (.single (.restarted _ rfl rfl))

theorem holds_reachable (blank : Blank w) (path : service.Reaches w c) :
    Sound.Holds Good Steps Idle answers c :=
  sound.holds_reaches blank.good (fun _ => blank.idle) path

/-- The invariants hold in every reachable state. -/
theorem good_reachable (blank : Blank w) (path : service.Reaches w c) : Good c.shared :=
  (holds_reachable blank path).invariant

/-- What every elementary step keeps stays for the rest of the run. -/
theorem lasting {P : World → Prop} (blank : Blank w) (path : service.Reaches w c)
    (keeps : ∀ actor s t, Statement actor s t → Good s → P s → P t) (now : P c.shared)
    (later : service.Leads c d) : P d.shared := by
  refine sound.stays (holds_reachable blank path) (fun actor s t moved good holds => ?_) now later
  have both : Good t ∧ P t := by
    induction moved with
    | refl => exact ⟨good, holds⟩
    | tail before last ih => exact ⟨Steps.good (.single last) ih.1, keeps _ _ _ last ih.1 ih.2⟩
  exact both.2

section Sample

/-- The bus over identifiers and digests that a run can be evaluated on. -/
abbrev sampleService : System World (Input Outside) Request Event (Except BusError Answer) :=
  @service .sample

def sampleCell : CellAcl :=
  ⟨[.send, .ask, .reply, .broadcast, .readInbox, .attachFiles], false, [], [], "codex", false⟩

def sampleStart : Start where
  acl := ⟨[("coder", sampleCell), ("ops", sampleCell), ("reviewer", sampleCell)], by decide⟩
  quota := .default
  adapters := []
  cfg := Start.none.cfg

/-- A section in which nothing fails. -/
def moment (secs : Nat) : Input Outside := ⟨[secs * 1000], [], ⟨false, .notReady, false, none⟩⟩

def blankWorld : World := ⟨.empty, [], Start.none.memory, 0, moment 0, []⟩

omit [Platform] in
theorem blankWorld_blank : Blank blankWorld := ⟨rfl, rfl, rfl⟩

def start : Move (Input Outside) Request Event :=
  .crash ⟨[], [], ⟨false, .notReady, false, some sampleStart⟩⟩

def sections (task count secs : Nat) : List (Move (Input Outside) Request Event) :=
  List.replicate count (.run task (moment secs))

end Sample
end Crewd.Bus
