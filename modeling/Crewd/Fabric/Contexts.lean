import Crewd.Fabric.Soundness

/-! Engine threads of codex cells. The adapter of a cell keeps the engine thread that it is
on across the crewd threads that use it, so a thread without one of its own is sent to the
one of its predecessor. Where each turn goes to the thread's own engine thread or to an
adapter that no other thread has used, no engine thread is ever shared. -/
namespace Crewd.Fabric
open Autocommit Concurrent Table History

variable {id cell : String} {self : Actor} {w w' : World}

section Marks
variable {history later : List Mark} {context : Option String}

/-- The adapter of a cell was prepared for the crewd thread and is on the engine thread. -/
def Used (id : String) (context : Option String) : List Mark → Prop
  | [] => False
  | .attached other _ _ on :: earlier => (other = id ∧ on = context) ∨ Used id context earlier
  | _ :: earlier => Used id context earlier

/-- The crewd threads that the adapter of the cell was prepared for since it was made. -/
def usersOf (cell : String) : List Mark → List String
  | [] => []
  | .made other _ :: earlier => if other = cell then [] else usersOf cell earlier
  | .attached id other _ _ :: earlier =>
    if other = cell then id :: usersOf cell earlier else usersOf cell earlier
  | _ :: earlier => usersOf cell earlier

/-- Some adapter was on the engine thread. -/
def seen (context : String) : List Mark → Bool
  | [] => false
  | .made _ on :: earlier => on = some context ∨ seen context earlier
  | .attached _ _ _ on :: earlier => on = some context ∨ seen context earlier
  | _ :: earlier => seen context earlier

/-- A turn of the crewd thread was sent to the engine thread. -/
def SentTo (id context : String) (history : List Mark) : Prop :=
  ∃ jobId cell turn ok, Mark.started jobId id cell (some context) turn ok ∈ history

/-- How the code prepares an adapter and sends a turn. -/
def Sends (earlier : List Mark) : Mark → Prop
  | .attached id cell own on =>
    (on = none ∨ on = (useOf cell earlier).2 ∨ own ≠ none ∧ on = own) ∧
      (own ≠ none → Used id own earlier)
  | .started _ id _ context _ _ => Used id context earlier
  | _ => True

/-- A new adapter is on an engine thread that no adapter was on before. An adapter is
prepared for a crewd thread only when it is then on the thread's own engine thread, or
no other crewd thread has used it since it was made. -/
def Separate (earlier : List Mark) : Mark → Prop
  | .made _ (some context) => seen context earlier = false
  | .attached id cell own (some context) =>
    own = some context ∨ ∀ user ∈ usersOf cell earlier, user = id
  | _ => True

instance : Decidable (Separate earlier mark) := by
  unfold Separate
  split <;> infer_instance

theorem Used.suffix (grows : history <:+ later) (used : Used id context history) :
    Used id context later := by
  obtain ⟨marks, rfl⟩ := grows
  induction marks with
  | nil => exact used
  | cons mark rest ih =>
    cases mark with
    | attached _ _ _ _ => exact .inr ih
    | _ => exact ih

theorem used_of_useOf (found : useOf cell history = (some id, context)) :
    Used id context history := by
  induction history with
  | nil => cases found
  | cons mark earlier ih =>
    cases mark with
    | made other on =>
      rw [useOf] at found
      split at found
      · cases found
      · exact ih found
    | attached user other own on =>
      rw [useOf] at found
      split at found
      · cases found
        exact .inl ⟨rfl, rfl⟩
      · exact .inr (ih found)
    | _ => exact ih found

theorem user_of_useOf (found : (useOf cell history).1 = some id) : id ∈ usersOf cell history := by
  induction history with
  | nil => cases found
  | cons mark earlier ih =>
    cases mark with
    | made other on =>
      rw [useOf] at found
      rw [usersOf]
      split at found
      · cases found
      · rename_i apart
        rw [if_neg apart]
        exact ih found
    | attached user other own on =>
      rw [useOf] at found
      rw [usersOf]
      split at found
      · rename_i here
        cases found
        rw [if_pos here]
        exact List.mem_cons_self
      · rename_i apart
        rw [if_neg apart]
        exact ih found
    | _ => exact ih found

theorem seen_of_useOf {context : String} (found : (useOf cell history).2 = some context) :
    seen context history = true := by
  induction history with
  | nil => cases found
  | cons mark earlier ih =>
    cases mark with
    | made other on | attached user other own on =>
      rw [useOf] at found
      apply decide_eq_true
      split at found
      · exact .inl found
      · exact .inr (ih found)
    | _ => exact ih found

theorem seen_of_used {context : String} (used : Used id (some context) history) :
    seen context history = true := by
  induction history with
  | nil => exact used.elim
  | cons mark earlier ih =>
    cases mark with
    | made other on => exact decide_eq_true (.inr (ih used))
    | attached user other own on =>
      apply decide_eq_true
      rcases used with ⟨_, same⟩ | before
      · exact .inl same
      · exact .inr (ih before)
    | _ => exact ih used

end Marks

section Owners
variable {history : List Mark}

/-- Every engine thread has at most one crewd thread, and the one of a new adapter has
none and no other new adapter. -/
structure Owned (history : List Mark) : Prop where
  owner : ∀ id other context, Used id (some context) history →
    Used other (some context) history → id = other
  unused : ∀ cell context, useOf cell history = (none, some context) →
    ∀ id, ¬ Used id (some context) history
  unshared : ∀ cell other context, useOf cell history = (none, some context) →
    useOf other history = (none, some context) → cell = other

theorem Owned.made {context : Option String} (owned : Owned history)
    (separate : Separate history (.made cell context)) :
    Owned (.made cell context :: history) := by
  have fresh : ∀ {on}, context = some on → seen on history ≠ true := by
    rintro on rfl
    exact Bool.eq_false_iff.mp separate
  have here : ∀ {other on}, useOf other (.made cell context :: history) = (none, some on) →
      (cell = other ∧ context = some on) ∨ (cell ≠ other ∧ useOf other history = (none, some on)) := by
    intro other on found
    rw [useOf] at found
    split at found
    · rename_i same
      exact .inl ⟨same, (Prod.mk.inj found).2⟩
    · rename_i apart
      exact .inr ⟨apart, found⟩
  have known : ∀ {other on}, useOf other history = (none, some on) → seen on history = true :=
    fun found => seen_of_useOf (congrArg Prod.snd found)
  constructor
  · exact owned.owner
  · intro other on found id used
    rcases here found with ⟨_, same⟩ | ⟨_, before⟩
    · exact fresh same (seen_of_used used)
    · exact owned.unused other on before id used
  · intro one other on found found'
    rcases here found with ⟨same, is⟩ | ⟨_, before⟩ <;>
      rcases here found' with ⟨same', is'⟩ | ⟨_, before'⟩
    · exact same.symm.trans same'
    · exact absurd (known before') (fresh is)
    · exact absurd (known before) (fresh is')
    · exact owned.unshared one other on before before'

/-- Who may be on the engine thread that a turn is sent to. -/
theorem Owned.attaches {own : Option String} {context : String} (owned : Owned history)
    (sends : Sends history (.attached id cell own (some context)))
    (separate : Separate history (.attached id cell own (some context))) :
    (∀ other, Used other (some context) history → other = id) ∧
      ∀ other, useOf other history = (none, some context) → other = cell := by
  obtain ⟨from_, carried⟩ := sends
  have resumed : own = some context → (∀ other, Used other (some context) history → other = id) ∧
      ∀ other, useOf other history = (none, some context) → other = cell := by
    rintro rfl
    have mine := carried (Option.some_ne_none _)
    constructor
    · exact fun other used => owned.owner other id context used mine
    · exact fun other found => absurd mine (owned.unused other context found id)
  rcases from_ with absent | still | ⟨_, same⟩
  · cases absent
  · rcases separate with same | alone
    · exact resumed same
    · cases user : (useOf cell history).1 with
      | none =>
        have new : useOf cell history = (none, some context) := Prod.ext user still.symm
        constructor
        · exact fun other used => absurd used (owned.unused cell context new other)
        · exact fun other found => owned.unshared other cell context found new
      | some user' =>
        obtain rfl := alone user' (user_of_useOf user)
        have mine : Used user' (some context) history :=
          used_of_useOf (Prod.ext user still.symm)
        constructor
        · exact fun other used => owned.owner other user' context used mine
        · exact fun other found => absurd mine (owned.unused other context found user')
  · exact resumed same.symm

theorem Owned.attached {own context : Option String} (owned : Owned history)
    (sends : Sends history (.attached id cell own context))
    (separate : Separate history (.attached id cell own context)) :
    Owned (.attached id cell own context :: history) := by
  have before : ∀ {other on}, useOf other (.attached id cell own context :: history) =
      (none, some on) → cell ≠ other ∧ useOf other history = (none, some on) := by
    intro other on found
    rw [useOf] at found
    split at found
    · cases found
    · rename_i apart
      exact ⟨apart, found⟩
  constructor
  · rintro one other on (⟨rfl, rfl⟩ | used) (⟨rfl, same⟩ | used')
    · rfl
    · exact ((owned.attaches sends separate).1 other used').symm
    · subst same
      exact (owned.attaches sends separate).1 one used
    · exact owned.owner one other on used used'
  · rintro other on found one (⟨rfl, rfl⟩ | used)
    · obtain ⟨apart, earlier⟩ := before found
      exact apart ((owned.attaches sends separate).2 other earlier).symm
    · exact owned.unused other on (before found).2 one used
  · intro one other on found found'
    exact owned.unshared one other on (before found).2 (before found').2

theorem owned_run (sends : Each Sends history) (separate : Each Separate history) :
    Owned history := by
  induction history with
  | nil => exact ⟨fun _ _ _ used => used.elim, fun _ _ found => (by cases found),
      fun _ _ _ found => (by cases found)⟩
  | cons mark earlier ih =>
    have owned := ih sends.1 separate.1
    cases mark with
    | made cell context => exact owned.made separate.2
    | attached id cell own context => exact owned.attached sends.2 separate.2
    | _ => exact ⟨owned.owner, owned.unused, owned.unshared⟩

end Owners

section Adapters

theorem engine_updateEngine {s : Scheduler} {f : Engine → Engine} {other : String} :
    (s.updateEngine cell f).engine other =
      if other = cell then (s.engine other).map f else s.engine other := lookup_alter

/-- The adapters that there are were there before, and are related to what they were. -/
def Survive (related : Engine → Engine → Prop) (w w' : World) : Prop :=
  ∀ cell e', w'.memory.scheduler.engine cell = some e' →
    ∃ e, w.memory.scheduler.engine cell = some e ∧ related e e'

section Survive
variable {related : Engine → Engine → Prop}

theorem Survive.same (itself : ∀ e, related e e)
    (engines : w'.memory.scheduler.engines = w.memory.scheduler.engines) : Survive related w w' := by
  intro cell e found
  rw [Scheduler.engine, engines] at found
  exact ⟨e, found, itself e⟩

theorem Survive.updated {f : Engine → Engine} (itself : ∀ e, related e e)
    (engines : w'.memory.scheduler.engines = alter cell f w.memory.scheduler.engines)
    (keeps : ∀ e, related e (f e)) : Survive related w w' := by
  intro other e found
  rw [Scheduler.engine, engines, lookup_alter] at found
  split at found
  · obtain ⟨e', there, rfl⟩ := Option.map_eq_some_iff.mp found
    exact ⟨e', there, keeps e'⟩
  · exact ⟨e, found, itself e⟩

theorem Survive.stopped (itself : ∀ e, related e e)
    (engines : w'.memory.scheduler.engines = without cell w.memory.scheduler.engines) :
    Survive related w w' := by
  intro other e found
  rw [Scheduler.engine, engines] at found
  by_cases named : other = cell
  · subst named
    exact absurd (found.symm.trans (lookup_without _)) (Option.some_ne_none e)
  · exact ⟨e, (lookup_without_of_ne named).symm.trans found, itself e⟩

end Survive

/-- Adapters that there were before, on the engine threads that they were on. -/
def Stay (w w' : World) : Prop := ∀ cell e', w'.memory.scheduler.engine cell = some e' →
  ∃ e, w.memory.scheduler.engine cell = some e ∧ e'.engineThreadId = e.engineThreadId

theorem Stay.same (engines : w'.memory.scheduler.engines = w.memory.scheduler.engines) :
    Stay w w' :=
  Survive.same (fun _ => rfl) engines

theorem Stay.updated {f : Engine → Engine}
    (engines : w'.memory.scheduler.engines = alter cell f w.memory.scheduler.engines)
    (keeps : ∀ e, (f e).engineThreadId = e.engineThreadId) : Stay w w' :=
  Survive.updated (fun _ => rfl) engines keeps

theorem Calm.stay (step : Calm w w') : Stay w w' := by
  cases step with
  | quiet same => exact .same (by rw [same.memory])
  | stopped cell => exact Survive.stopped (fun _ => rfl) rfl
  | adapted cell f _ keeps => exact .updated rfl keeps
  | emitted cell turn event _ =>
    exact .updated (f := fun e => { e with outbox := e.outbox ++ [(turn, event)] }) rfl fun _ => rfl
  | died cell => exact .updated (f := fun e => { e with up := false }) rfl fun _ => rfl
  | _ => exact .same rfl

theorem poll_stay (turn : InFlightTurn) (w : World) : Stay w ((poll turn).exec w).2 := by
  simp only [poll, Action.exec_step]
  split
  · exact .same rfl
  · exact .updated (f := fun e => { e with outbox := [] }) rfl fun _ => rfl

/-- Every adapter is on the engine thread that it was last prepared for, every turn in
flight is the one that the adapter of its cell was prepared for, and the records hold
engine threads that their crewd threads have used. -/
structure Prepared (w : World) : Prop where
  adapters : ∀ cell e, w.memory.scheduler.engine cell = some e →
    e.engineThreadId = (useOf cell w.history).2
  flying : ∀ entry ∈ w.memory.scheduler.inFlight,
    (useOf entry.2.cell w.history).1 = some entry.1
  records : ∀ t ∈ w.store.threads, t.engineThreadId ≠ none →
    Used t.crewdThreadId t.engineThreadId w.history
  sends : Each Sends w.history

/-- Steps that prepare no adapter and store no engine thread. -/
theorem Prepared.frame (prepared : Prepared w) (grows : Grows w w') (stay : Stay w w')
    (uses : ∀ cell, useOf cell w'.history = useOf cell w.history)
    (turns : ∀ entry ∈ w'.memory.scheduler.inFlight, ∃ old ∈ w.memory.scheduler.inFlight,
      entry.1 = old.1 ∧ entry.2.cell = old.2.cell)
    (rows : ∀ t ∈ w'.store.threads, t.engineThreadId ≠ none → ∃ old ∈ w.store.threads,
      t.crewdThreadId = old.crewdThreadId ∧ t.engineThreadId = old.engineThreadId)
    (sends : Each Sends w'.history) : Prepared w' := by
  constructor
  · intro cell e found
    obtain ⟨old, there, same⟩ := stay cell e found
    rw [same, uses]
    exact prepared.adapters cell old there
  · intro entry inside
    obtain ⟨old, before, thread, inCell⟩ := turns entry inside
    rw [uses, thread, inCell]
    exact prepared.flying old before
  · intro t stored known
    obtain ⟨old, before, named, same⟩ := rows t stored known
    rw [named, same]
    exact (prepared.records old before (same ▸ known)).suffix grows.history
  · exact sends

theorem rows_updated {f : CellThread → CellThread}
    (keeps : ∀ t, (f t).crewdThreadId = t.crewdThreadId ∧ (f t).engineThreadId = t.engineThreadId)
    (store : w'.store = w.store.updateThread id f) :
    ∀ t ∈ w'.store.threads, t.engineThreadId ≠ none → ∃ old ∈ w.store.threads,
      t.crewdThreadId = old.crewdThreadId ∧ t.engineThreadId = old.engineThreadId := by
  intro t stored _
  rw [store] at stored
  obtain ⟨old, before, rfl⟩ := mem_updateThread.mp stored
  refine ⟨old, before, ?_⟩
  split
  · exact keeps old
  · exact ⟨rfl, rfl⟩

theorem Calm.sends (step : Calm w w') (sends : Each Sends w.history) : Each Sends w'.history := by
  cases step with
  | quiet same => rw [same.history]; exact sends
  | moved _ _ _ _ _ _ _ | cancelled _ _ _ | recorded _ _ _ | emitted _ _ _ _ | journal _ _ _ _
  | stopped _ | died _ => exact ⟨sends, trivial⟩
  | _ => exact sends

theorem Calm.prepared (step : Calm w w') (prepared : Prepared w) : Prepared w' := by
  have turns : ∀ entry ∈ w'.memory.scheduler.inFlight, ∃ old ∈ w.memory.scheduler.inFlight,
      entry.1 = old.1 ∧ entry.2.cell = old.2.cell := by
    rw [step.inFlight]
    exact fun entry inside => ⟨entry, inside, rfl, rfl⟩
  refine prepared.frame step.grows step.stay (fun _ => step.useOf) turns ?_ (step.sends prepared.sends)
  cases step with
  | quiet same =>
    rw [same.store]
    exact fun t stored _ => ⟨t, stored, rfl, rfl⟩
  | columns id f keeps still => exact rows_updated (fun t => ⟨(keeps t).1, still t⟩) rfl
  | moved id now t target _ _ _ => exact rows_updated (f := .movedTo target now) (fun _ => ⟨rfl, rfl⟩) rfl
  | spawned locks row thread job spawns =>
    intro t stored known
    rcases List.mem_append.mp stored with old | new
    · exact ⟨t, old, rfl, rfl⟩
    · rw [List.mem_singleton.mp new] at known
      exact absurd spawns.unattached known
  | _ => exact fun t stored _ => ⟨t, stored, rfl, rfl⟩

/-- The steps of the scheduler that leave adapters, turns and records where they are. -/
theorem Prepared.marked {mark : Mark} (prepared : Prepared w) (grows : Grows w w')
    (history : w'.history = mark :: w.history) (memory : w'.memory = w.memory)
    (aside : ∀ cell, useOf cell (mark :: w.history) = useOf cell w.history)
    (rows : ∀ t ∈ w'.store.threads, t.engineThreadId ≠ none → ∃ old ∈ w.store.threads,
      t.crewdThreadId = old.crewdThreadId ∧ t.engineThreadId = old.engineThreadId)
    (sent : Sends w.history mark) : Prepared w' := by
  apply prepared.frame grows (.same (by rw [memory])) _ _ rows
  · rw [history]
    exact ⟨prepared.sends, sent⟩
  · rw [history]
    exact aside
  · rw [memory]
    exact fun entry inside => ⟨entry, inside, rfl, rfl⟩

/-- The turn is sent to the engine thread that the adapter was prepared for. -/
theorem Prepared.launched {job : CellJob} {nowNanos : Nat} {ok : Bool} (prepared : Prepared w)
    (there : (w.memory.scheduler.engine cell).isSome)
    (aimed : (useOf cell w.history).1 = some job.crewdThreadId) :
    Prepared ((launchTurn cell job.crewdThreadId job.jobId nowNanos ok).exec w).2 := by
  obtain ⟨e, found⟩ := Option.isSome_iff_exists.mp there
  constructor
  · intro other e' found'
    have stay : Stay w ((launchTurn cell job.crewdThreadId job.jobId nowNanos ok).exec w).2 := by
      let turn := w.history.length
      cases ok <;>
        exact .updated (f := fun e => { e with started := turn :: e.started }) rfl fun _ => rfl
    obtain ⟨old, before, same⟩ := stay other e' found'
    exact same.trans (prepared.adapters other old before)
  · intro entry inside
    cases ok with
    | false => exact prepared.flying entry inside
    | true =>
      rcases mem_put.mp inside with rfl | ⟨before, _⟩
      · exact aimed
      · exact prepared.flying entry before
  · exact prepared.records
  · refine ⟨prepared.sends, ?_⟩
    rw [found]
    have prompts : useOf cell w.history = (some job.crewdThreadId, e.engineThreadId) :=
      Prod.ext aimed (prepared.adapters cell e found).symm
    exact used_of_useOf prompts

/-- No turn flies on the cell of the new adapter. -/
theorem Prepared.made {kind : EngineKind} {threadId : Option String} (prepared : Prepared w)
    (clear : Clear cell w) : Prepared ((makeAdapter cell kind threadId).exec w).2 := by
  constructor
  · intro other e found
    have looked := lookup_put.symm.trans found
    by_cases named : other = cell
    · subst named
      rw [if_pos rfl] at looked
      cases looked
      simp [makeAdapter, useOf]
    · rw [if_neg named] at looked
      have apart : cell ≠ other := Ne.symm named
      simp only [makeAdapter, Action.exec_step, useOf, if_neg apart]
      exact prepared.adapters other e looked
  · intro entry inside
    have apart : cell ≠ entry.2.cell := Ne.symm (clear entry inside)
    simp only [makeAdapter, Action.exec_step, useOf, if_neg apart]
    exact prepared.flying entry inside
  · exact prepared.records
  · exact ⟨prepared.sends, trivial⟩

/-- The adapter is prepared for the next turn of its cell. -/
theorem Prepared.attached {thread : CellThread} {f : Engine → Engine} (prepared : Prepared w)
    (clear : Clear cell w) (carries : Carries thread w.store) (resumes : Resumes thread f) :
    Prepared ((attach cell thread f).exec w).2 := by
  constructor
  · intro other e found
    have looked : (w.memory.scheduler.updateEngine cell f).engine other = some e := found
    by_cases named : other = cell
    · subst named
      simp [attach, useOf, Memory.schedule, looked]
    · have apart : cell ≠ other := Ne.symm named
      rw [engine_updateEngine, if_neg named] at looked
      simp only [attach, Action.exec_step, useOf, if_neg apart]
      exact prepared.adapters other e looked
  · intro entry inside
    have apart : cell ≠ entry.2.cell := Ne.symm (clear entry inside)
    simp only [attach, Action.exec_step, useOf, if_neg apart]
    exact prepared.flying entry inside
  · intro t stored known
    exact .inr (prepared.records t stored known)
  · refine ⟨prepared.sends, ?_, fun known => ?_⟩
    · have looked : ((w.memory.schedule (·.updateEngine cell f)).scheduler.engine cell) =
          (w.memory.scheduler.engine cell).map f := by
        exact engine_updateEngine.trans (if_pos rfl)
      rw [looked]
      cases found : w.memory.scheduler.engine cell with
      | none => exact .inl rfl
      | some e =>
        rcases resumes.2 e with still | ⟨known, own⟩
        · exact .inr (.inl (still.trans (prepared.adapters cell e found)))
        · exact .inr (.inr ⟨known, own⟩)
    · obtain ⟨t, stored, named, same⟩ := carries
      rw [← named, ← same]
      exact prepared.records t stored (by rw [same]; exact known)

/-- The record gets the engine thread that the turn in flight was sent to. -/
theorem Prepared.persisted {f : CellThread → CellThread} (prepared : Prepared w) (keeps : Column f)
    (persists : Persists id cell f w) :
    Prepared { w with store := w.store.updateThread id f } := by
  obtain ⟨⟨turn, inside, rfl⟩, stores⟩ := persists
  refine ⟨prepared.adapters, prepared.flying, fun t stored known => ?_, prepared.sends⟩
  obtain ⟨old, before, rfl⟩ := mem_updateThread.mp stored
  by_cases named : old.crewdThreadId = id
  · rw [if_pos named] at known ⊢
    rw [(keeps old).1, named, stores]
    rw [stores] at known
    cases on : (w.memory.scheduler.engine turn.cell).bind (·.engineThreadId) with
    | none =>
      rw [on] at known
      exact named ▸ prepared.records old before known
    | some context =>
      obtain ⟨e, found, same⟩ := Option.bind_eq_some_iff.mp on
      have use := prepared.adapters turn.cell e found
      exact used_of_useOf (Prod.ext (prepared.flying _ inside) (use.symm.trans same))
  · rw [if_neg named] at known ⊢
    exact prepared.records old before known

theorem Statement.prepared (step : Statement self w w') (prepared : Prepared w) : Prepared w' := by
  have grows := step.grows
  have rows : w'.store.threads = w.store.threads → ∀ t ∈ w'.store.threads, t.engineThreadId ≠ none →
      ∃ old ∈ w.store.threads, t.crewdThreadId = old.crewdThreadId ∧
        t.engineThreadId = old.engineThreadId := by
    intro same t stored _
    rw [same] at stored
    exact ⟨t, stored, rfl, rfl⟩
  have fewer : (∀ entry ∈ w'.memory.scheduler.inFlight, entry ∈ w.memory.scheduler.inFlight) →
      ∀ entry ∈ w'.memory.scheduler.inFlight, ∃ old ∈ w.memory.scheduler.inFlight,
        entry.1 = old.1 ∧ entry.2.cell = old.2.cell :=
    fun sub entry inside => ⟨entry, sub entry inside, rfl, rfl⟩
  cases step with
  | calm step => exact step.prepared prepared
  | polled threadId turn _ _ =>
    refine prepared.frame grows (poll_stay turn w) (fun _ => poll_unseen (fun _ _ _ _ => rfl) turn w)
      (fewer ?_) (rows ?_) ?_
    · rw [(poll_leaves turn w).2]
      exact fun _ inside => inside
    · rw [(poll_leaves turn w).1]
    · exact poll_each (fun _ _ _ _ => trivial) turn prepared.sends
  | applied _ _ _ _ _ =>
    exact prepared.frame grows (.same rfl) (fun _ => rfl) (fewer fun _ inside => inside) (rows rfl)
      ⟨prepared.sends, trivial⟩
  | leased _ _ _ _ _ _ | begun _ _ _ _ | finished _ _ _ _ | requeued _ _ _ =>
    exact prepared.marked grows rfl rfl (fun _ => rfl) (rows rfl) trivial
  | running id now t row earlier _ _ _ _ _ =>
    exact prepared.marked grows rfl rfl (fun _ => rfl)
      (rows_updated (f := .movedTo .running now) (fun _ => ⟨rfl, rfl⟩) rfl) trivial
  | launched job cell nowNanos ok _ _ _ there aimed => exact prepared.launched there aimed
  | made cell kind threadId _ _ clear => exact prepared.made clear
  | attached thread cell f _ clear carries resumes => exact prepared.attached clear carries resumes
  | persisted id cell f _ keeps persists => exact prepared.persisted keeps persists
  | updatedTurn threadId f _ keeps =>
    refine prepared.frame grows (.same rfl) (fun _ => rfl) (fun entry inside => ?_) (rows rfl)
      prepared.sends
    obtain ⟨old, before, rfl⟩ := mem_alter.mp inside
    refine ⟨old, before, ?_⟩
    split
    · exact ⟨rfl, (keeps old.2).1⟩
    · exact ⟨rfl, rfl⟩
  | landed threadId _ _ =>
    exact prepared.frame grows (.same rfl) (fun _ => rfl)
      (fewer fun entry inside => (mem_without.mp inside).1) (rows rfl) prepared.sends
  | dropped cell _ _ =>
    exact prepared.frame grows (.same rfl) (fun _ => rfl)
      (fewer fun entry inside => (List.mem_filter.mp inside).1) (rows rfl) prepared.sends
  | overdue threadId _ =>
    revert grows rows fewer
    simp only [takeTurn, Action.exec_step]
    split
    · exact fun _ _ _ => prepared
    · intro grows rows fewer
      exact prepared.frame grows (.same rfl) (fun _ => rfl)
        (fewer fun entry inside => (mem_without.mp inside).1) (rows rfl) ⟨prepared.sends, trivial⟩
  | restarted acl _ =>
    refine ⟨fun _ _ found => ?_, fun _ inside => ?_, prepared.records, prepared.sends, trivial⟩
    · cases found
    · cases inside

end Adapters

/-- The daemon before its first start, when no engine runs either. -/
structure Cold (w : World) : Prop extends Blank w where
  engines : w.memory.scheduler.engines = []

theorem prepared_reachable [Platform] {c : FabricConfig} (cold : Cold w)
    (reached : service.Reaches w c) : Prepared c.shared := by
  apply always cold.toBlank reached
  · constructor
    · intro cell e found
      rw [Scheduler.engine, cold.engines] at found
      cases found
    · rw [cold.inFlight]
      exact fun _ inside => by cases inside
    · rw [cold.store]
      exact fun _ stored => by cases stored
    · rw [cold.history]
      trivial
  · exact fun _ _ _ step _ prepared => step.prepared prepared

/-- In every run in which an adapter is prepared for a crewd thread only when it is then
on the thread's own engine thread or no other crewd thread has used it since it was made,
turns of different crewd threads are sent to different engine threads, and no two crewd
threads carry the same one. -/
theorem engine_contexts_apart [Platform] {c : FabricConfig} (cold : Cold w)
    (reached : service.Reaches w c) (separate : Each Separate c.shared.history) :
    (∀ id other context, SentTo id context c.shared.history →
      SentTo other context c.shared.history → id = other) ∧
    ∀ t ∈ c.shared.store.threads, ∀ t' ∈ c.shared.store.threads, ∀ context,
      t.engineThreadId = some context → t'.engineThreadId = some context →
        t.crewdThreadId = t'.crewdThreadId := by
  have prepared := prepared_reachable cold reached
  have owned := owned_run prepared.sends separate
  have sent : ∀ id context, SentTo id context c.shared.history →
      Used id (some context) c.shared.history := by
    rintro id context ⟨jobId, cell, turn, ok, marked⟩
    obtain ⟨later, earlier, split⟩ := List.append_of_mem marked
    have sends := prepared.sends
    rw [split] at sends ⊢
    have grows : earlier <:+ later ++ Mark.started jobId id cell (some context) turn ok :: earlier :=
      (List.suffix_cons _ _).trans (List.suffix_append _ _)
    exact Used.suffix grows sends.at_mark
  have carried : ∀ t ∈ c.shared.store.threads, ∀ context, t.engineThreadId = some context →
      Used t.crewdThreadId (some context) c.shared.history := by
    intro t stored context known
    rw [← known]
    exact prepared.records t stored (known ▸ Option.some_ne_none context)
  constructor
  · exact fun id other context first second =>
      owned.owner id other context (sent id context first) (sent other context second)
  · exact fun t stored t' stored' context known known' =>
      owned.owner _ _ context (carried t stored context known) (carried t' stored' context known')

section Sample

def codexCell : CellDef := { reviewer with engine := .codex }

/-- A section in which nothing fails, with codex engines that make a thread. -/
def codexMoment (secs : Nat) : Input Outside :=
  ⟨[secs * 1000], [], ⟨String.length, fun _ => .ok (some "engine-1"), fun _ => .ok (), fun _ => true,
    none⟩⟩

def codexTicking (count secs : Nat) : List (Move (Input Outside) Request Event) :=
  List.replicate count (.main (codexMoment secs))

/-- A turn of the first thread of a codex cell, answered. -/
def codexAnswer : List (Move (Input Outside) Request Event) :=
  start 1783242000 :: .event (.cellRegistered codexCell) :: spawning 0 "k1" 1783242000 ++
    codexTicking 17 1783242001 ++ [emits 7 (.accepted "t1"), emits 7 (.final "done")] ++
    codexTicking 15 1783242002

/-- The threads of the turns that were sent to the engine thread. -/
def sentTo (context : String) (history : List Mark) : List String := history.filterMap fun
  | .started _ id _ on _ _ => if on = some context then some id else none
  | _ => none

theorem sentTo_of_mem {context : String} {history : List Mark}
    (member : id ∈ sentTo context history) : SentTo id context history := by
  obtain ⟨mark, known, same⟩ := List.mem_filterMap.mp member
  cases mark with
  | started jobId other cell on turn ok =>
    dsimp only at same
    split at same
    · rename_i here
      cases same
      exact ⟨jobId, cell, turn, ok, here ▸ known⟩
    · cases same
  | _ => cases same

theorem blankWorld_cold : Cold blankWorld := ⟨blankWorld_blank, rfl⟩

/-- Two turns of one thread, both sent to its engine thread. -/
theorem engine_contexts_apart_followed : ∃ c, sampleService.Reaches blankWorld c ∧
    sentTo "engine-1" c.shared.history = [firstThread, firstThread] ∧
    ∀ id, SentTo id "engine-1" c.shared.history → id = firstThread := by
  let _ := Platform.sample
  have ran : (sampleService.runs (System.dormant blankWorld) (codexAnswer ++
      sendingTask 1 firstThread 1783242003 ++ codexTicking 17 1783242004)).map (fun c => decide (
        Each Separate c.shared.history ∧
        sentTo "engine-1" c.shared.history = [firstThread, firstThread])) = some true := by
    decide +kernel
  obtain ⟨c, run, facts⟩ := Option.map_eq_some_iff.mp ran
  obtain ⟨separate, turns⟩ := of_decide_eq_true facts
  have reached : sampleService.Reaches blankWorld c := System.leads_of_runs _ run
  have mine : SentTo firstThread "engine-1" c.shared.history :=
    sentTo_of_mem (turns ▸ List.mem_cons_self)
  refine ⟨c, reached, turns, fun id sent => ?_⟩
  exact (engine_contexts_apart blankWorld_cold reached separate).1 id firstThread "engine-1" sent mine

/-- A second thread of the cell is spawned, and its turn is sent to the engine thread of
the first one and answered there. -/
theorem engine_context_shared : ∃ c, sampleService.Reaches blankWorld c ∧
    (∃ id other, id ≠ other ∧ SentTo id "engine-1" c.shared.history ∧
      SentTo other "engine-1" c.shared.history) ∧
    c.shared.store.threads.map (·.engineThreadId) = [some "engine-1", some "engine-1"] := by
  let _ := Platform.sample
  have ran : (sampleService.runs (System.dormant blankWorld) (codexAnswer ++
      spawning 1 "k2" 1783242003 ++ codexTicking 17 1783242004 ++
      [emits 23 (.accepted "t2"), emits 23 (.final "done")] ++ codexTicking 15 1783242005)).map
      (fun c => decide ((sentTo "engine-1" c.shared.history).Nodup ∧
        (sentTo "engine-1" c.shared.history).length = 2 ∧
        c.shared.store.threads.map (·.engineThreadId) = [some "engine-1", some "engine-1"])) =
      some true := by
    decide +kernel
  obtain ⟨c, run, facts⟩ := Option.map_eq_some_iff.mp ran
  obtain ⟨once, two, records⟩ := of_decide_eq_true facts
  refine ⟨c, System.leads_of_runs _ run, ?_, records⟩
  obtain ⟨id, other, turns⟩ := List.length_eq_two.mp two
  rw [turns] at once
  refine ⟨id, other, ?_, sentTo_of_mem (turns ▸ ?_), sentTo_of_mem (turns ▸ ?_)⟩
  · rintro rfl
    exact absurd List.mem_cons_self (List.nodup_cons.mp once).1
  · exact List.mem_cons_self
  · exact List.mem_cons_of_mem _ List.mem_cons_self

end Sample
end Crewd.Fabric
