import Crewd.Fabric.Spawning
import Crewd.Fabric.Ticking

/-! The fabric as a whole: in every run, with any interleaving, failing statements
and crashes, each move takes elementary steps only, so the invariants hold in every
state and every spawn answers what was recorded of it. -/
namespace Crewd.Fabric
open Autocommit Concurrent History

abbrev FabricConfig := Config World (Input Outside) Request (Except BusError Answer)

/-- What an answer says in the end. -/
def answers (task : Nat) : Request → Except BusError Answer → World → Prop
  | .spawn caller params, .ok answer, w => ∃ threadId replayed,
    answer = .spawned threadId replayed ∧ SpawnAnswered task caller params threadId replayed w
  | _, _, _ => True

/-- The daemon before its first start: nothing stored, nothing in flight. -/
structure Blank (w : World) : Prop where
  store : w.store = .empty
  history : w.history = []
  inFlight : w.memory.scheduler.inFlight = []

theorem Blank.good (blank : Blank w) : Good w := by
  refine ⟨.initial blank.store blank.history blank.inFlight, fun task call marked => ?_, ?_⟩
  · rw [blank.history] at marked
    cases marked
  · constructor <;>
    · rw [blank.inFlight]
      intro entry inside
      cases inside

/-- What boot recovery does to one thread is calm. -/
theorem recoverThread_calmly (outcome previous : String) {target : ThreadState} (t : CellThread)
    (idle : target ≠ .running) : Calmly (recoverThread outcome previous target t) := by
  refine .bind (.append _) fun logged => ?_
  cases logged with
  | error e => exact .throw _
  | ok u => exact .bind (.threadTransition idle) fun _ => .pure _

theorem bootRecovery_calmly : Calmly bootRecovery := by
  refine .bind (.of_silent (.query _)) fun running => .bind (.mapM fun _ => ?_) fun interrupted => ?_
  · exact recoverThread_calmly _ _ _ (by decide)
  · refine .bind (.of_silent (.query _)) fun spawning => .bind (.mapM fun _ => ?_) fun failed => .pure _
    exact recoverThread_calmly _ _ _ (by decide)

/-- What an actor may do at any time, done as a path of its steps. -/
theorem Steps.of_calm (path : Relation.ReflTransGen Calm w w') : Steps actor w w' :=
  Relation.ReflTransGen.mono (fun _ _ => .calm) _ _ path

theorem SpawnAnswered.lasts {task : Nat} {caller threadId : String} {replayed : Bool}
    {params : Params CellSpawnParams}
    (answer : SpawnAnswered task caller params threadId replayed w) (moved : Steps actor w w') :
    SpawnAnswered task caller params threadId replayed w' :=
  answer.grow moved.grows

variable [Platform]

theorem handle_follows (task : Nat) (request : Request) :
    Safe Good (others Steps (.task task)) (Steps (.task task)) (answers task request)
      (service.program task request) (fun _ => True) := by
  have plain : ∀ {h : Handler Answer} {Q : Except BusError Answer → World → Prop},
      Plain (.task task) h → (∀ r w, Q r w) →
      Safe Good (others Steps (.task task)) (Steps (.task task)) Q h.run (fun _ => True) :=
    fun runs free => (Safe.weaken (fun _ _ _ => trivial) runs).post fun r w _ _ => free r w
  cases request with
  | sendTask caller params => exact plain (handleSendTask_plain caller params) fun _ _ => trivial
  | cancel caller params => exact plain (handleCancel_plain caller params) fun _ _ => trivial
  | spawn caller params =>
    refine Safe.post (fun r w _ holds => ?_) (handleSpawn_follows caller params)
    cases r with
    | ok answer => exact holds
    | error e => trivial

omit [Platform] in
/-- Engines, operators and the rest of the daemon take calm steps. -/
theorem happens_calm (happened : happens event w = some w') :
    Relation.ReflTransGen Calm w w' := by
  cases event with
  | emitted cell turn event =>
    simp only [happens] at happened
    split at happened
    · rename_i emits
      cases happened
      exact .single (.emitted cell turn event emits)
    · cases happened
  | identified cell sessionId =>
    simp only [happens] at happened
    split at happened
    · cases happened
      exact .single (.adapted cell _ (fun _ => ⟨rfl, rfl, rfl⟩) fun _ => rfl)
    · cases happened
  | died cell =>
    cases happened
    exact .single (.died cell)
  | cellRegistered d =>
    simp only [happens] at happened
    split at happened
    · cases happened
      exact .head (.cells _) (.single (.event _))
    · cases happened
  | cellUpdated d =>
    simp only [happens] at happened
    split at happened
    · cases happened
      exact .head (.cells _) (.single (.event _))
    · cases happened
  | audited draft =>
    simp only [happens] at happened
    split at happened
    · cases happened
      exact .single (.event draft)
    · cases happened
  | minted =>
    cases happened
    exact .single (.quiet ⟨rfl, rfl, rfl, rfl, Nat.le_succ _⟩)

omit [Platform] in
/-- A restart forgets the memory, then recovers. -/
theorem restart_steps (i : Input Outside) (w : World) :
    ∃ v : World, Statement .restart (w.install i) v ∧ v.store = w.store ∧
      v.history = .restarted :: w.history ∧
      Relation.ReflTransGen Calm v (restart i w).1 :=
  ⟨_, .restarted _ rfl, rfl, rfl, (bootRecovery_calmly _ trivial).1⟩

theorem sound : Sound service Good Steps (fun _ _ => True) answers where
  keeps _ _ _ moved good := moved.good good
  waits _ _ _ _ _ _ _ := trivial
  lasts k request r actor other w w' moved holds := by
    cases request with
    | spawn caller params =>
      cases r with
      | error e => trivial
      | ok answer =>
        obtain ⟨threadId, replayed, same, answered⟩ := holds
        exact ⟨threadId, replayed, same, answered.lasts moved⟩
    | _ => trivial
  program := handle_follows
  loop := Safe.bind tick_plain fun _ => Safe.pure fun _ _ _ => trivial
  happens event w w' _ happened := .of_calm (happens_calm happened)
  restarts i w _ := by
    obtain ⟨v, forgets, _, _, recovers⟩ := restart_steps i w
    exact .head (.calm (.quiet (w.quiet_install i))) (.head forgets (Steps.of_calm recovers))

theorem holds_reachable (blank : Blank w) (path : service.Reaches w c) :
    Sound.Holds Good Steps (fun _ _ => True) answers c :=
  sound.holds_reaches blank.good (fun _ => trivial) path

/-- The invariants hold in every reachable state. -/
theorem good_reachable (blank : Blank w) (path : service.Reaches w c) : Good c.shared :=
  (holds_reachable blank path).invariant

/-- What every elementary step keeps stays for the rest of the run. -/
theorem lasting {P : World → Prop} (blank : Blank w) (path : service.Reaches w c)
    (keeps : ∀ actor s t, Statement actor s t → Good s → P s → P t) (now : P c.shared)
    (later : service.Leads c d) : P d.shared := by
  refine sound.stays (holds_reachable blank path) (fun actor s t moved good holds => ?_) now later
  have both : Good t ∧ P t := by
    induction moved with
    | refl => exact ⟨good, holds⟩
    | tail before last ih => exact ⟨Steps.good (.single last) ih.1, keeps _ _ _ last ih.1 ih.2⟩
  exact both.2

/-- What holds before the first start and is kept by every step. -/
theorem always {P : World → Prop} (blank : Blank w) (path : service.Reaches w c) (first : P w)
    (keeps : ∀ actor s t, Statement actor s t → Good s → P s → P t) : P c.shared :=
  lasting blank (.refl _) keeps first path

/-- The same for runs whose marks all meet a condition. -/
theorem lasting_where {fits : List Mark → Mark → Prop} {P : World → Prop} (blank : Blank w)
    (path : service.Reaches w c)
    (keeps : ∀ actor s t, Statement actor s t → Good s → Each fits t.history → P s → P t)
    (now : P c.shared) (later : service.Leads c d) (fitting : Each fits d.shared.history) :
    P d.shared := by
  refine lasting (P := fun s => Each fits s.history → P s) blank path
    (fun actor s t step good holds fitting => ?_) (fun _ => now) later fitting
  exact keeps actor s t step good fitting (holds (fitting.suffix step.grows.history))

theorem always_where {fits : List Mark → Mark → Prop} {P : World → Prop} (blank : Blank w)
    (path : service.Reaches w c) (fitting : Each fits c.shared.history) (first : P w)
    (keeps : ∀ actor s t, Statement actor s t → Good s → Each fits t.history → P s → P t) :
    P c.shared :=
  lasting_where blank (.refl _) keeps first path fitting

section Sample

/-- The fabric over identifiers and digests that a run can be evaluated on. -/
abbrev sampleService : System World (Input Outside) Request Event (Except BusError Answer) :=
  @service .sample

def sampleCell : CellAcl := ⟨[.spawn], false, [], [], "codex", false⟩

def sampleAcl : Acl := ⟨[("coder", sampleCell), ("ops", sampleCell)], by decide⟩

/-- Engines come up and take every turn. -/
def willing (start : Option Acl) : Outside :=
  ⟨String.length, fun _ => .ok none, fun _ => .ok (), fun _ => false, start⟩

/-- A section in which nothing fails. -/
def moment (secs : Nat) : Input Outside := ⟨[secs * 1000], [], willing none⟩

def blankWorld : World := ⟨.empty, [], .new .empty, 0, moment 0, []⟩

omit [Platform] in
theorem blankWorld_blank : Blank blankWorld := ⟨rfl, rfl, rfl⟩

def start (secs : Nat) : Move (Input Outside) Request Event :=
  .crash ⟨[secs * 1000], [], willing (some sampleAcl)⟩

def sections (task count secs : Nat) : List (Move (Input Outside) Request Event) :=
  List.replicate count (.run task (moment secs))

/-- Moves of the scheduler. -/
def ticking (count secs : Nat) : List (Move (Input Outside) Request Event) :=
  List.replicate count (.main (moment secs))

def reviewer : CellDef :=
  ⟨"reviewer", .fake, none, none, ".", false, none, "2026-07-05T09:00:00Z"⟩

/-- A whole call of `cell_spawn` on the registered cell. -/
def spawning (task : Nat) (key : String) (secs : Nat) : List (Move (Input Outside) Request Event) :=
  .call (.spawn "coder" ⟨["cell", "task", "idempotency_key"],
    .ok ⟨some "reviewer", none, none, none, none, none, "review", key⟩⟩) :: sections task 3 secs

/-- A whole call of `cell_send_task`. -/
def sendingTask (task : Nat) (threadId : String) (secs : Nat) :
    List (Move (Input Outside) Request Event) :=
  .call (.sendTask "coder" ⟨["crewd_thread_id", "message"], .ok ⟨threadId, "again", none⟩⟩) ::
    sections task 2 secs

/-- Sections of a call of `cell_cancel`; the second one cancels the jobs. -/
def cancelling (task : Nat) (threadId : String) (count secs : Nat) :
    List (Move (Input Outside) Request Event) :=
  .call (.cancel "coder" ⟨["crewd_thread_id"], .ok ⟨threadId⟩⟩) :: sections task count secs

def emits (turn : Nat) (event : EngineEvent) : Move (Input Outside) Request Event :=
  .event (.emitted "reviewer" turn event)

/-- The first thread of a sample run. -/
def firstThread : String := "0197d8a0-0000-7000-8000-000000000000"

/-- A thread is spawned and a tick leases its job. -/
def firstLease : List (Move (Input Outside) Request Event) :=
  start 1783242000 :: .event (.cellRegistered reviewer) :: spawning 0 "k1" 1783242000 ++
    ticking 9 1783242001

/-- A thread is spawned and a tick starts its turn. -/
def firstTurn : List (Move (Input Outside) Request Event) :=
  start 1783242000 :: .event (.cellRegistered reviewer) :: spawning 0 "k1" 1783242000 ++
    ticking 17 1783242001

/-- The engine accepts and completes the turn, and a tick takes note of it. -/
def firstAnswer : List (Move (Input Outside) Request Event) :=
  firstTurn ++ [emits 7 (.accepted "t1"), emits 7 (.final "done")] ++ ticking 15 1783242002

end Sample
end Crewd.Fabric
