import Crewd.Lib.History
import Crewd.Bus.Steps

/-! Wakers, waiters and deadlines: which runs are orderly, and what then holds of
every await that is still in progress. -/
namespace Crewd.Bus
open Autocommit Concurrent History

def Committed (askId : String) (history : List Mark) : Prop :=
  ∃ reply, Mark.committed askId reply ∈ history

/-- The awaits of an ask that missed their notification until the deadline and
have not gone on to read the ticket again. -/
def asleep (askId : String) : List Mark → List Nat
  | [] => []
  | .slept task id :: earlier =>
    if id = askId then task :: asleep askId earlier else asleep askId earlier
  | .resumed task id :: earlier =>
    if id = askId then (asleep askId earlier).erase task else asleep askId earlier
  | .restarted :: _ => []
  | _ :: earlier => asleep askId earlier

/-- Whether a mark fits to what happened before it: a notification finds at most
one await in progress, an await that registers after it finds the permit, no
deadline passes between a commit and its notification, and no commit falls
between a deadline and the reading that follows. -/
def Fits (earlier : List Mark) : Mark → Prop
  | .notified askId => (inProgress askId earlier).length ≤ 1
  | .registered _ askId permit =>
    Mark.notified askId ∈ earlier → permit = true ∧ inProgress askId earlier = []
  | .slept _ askId => Committed askId earlier → Mark.notified askId ∈ earlier
  | .committed askId _ => asleep askId earlier = []
  | _ => True

def Orderly : List Mark → Prop := Each Fits

/-- No await sleeps to its deadline on an ask that was settled before. -/
def Punctual : List Mark → Prop := Each fun earlier mark =>
  ∀ task askId, mark = .slept task askId → ¬ Committed askId earlier

theorem Orderly.earlier (orderly : Orderly (mark :: history)) : Orderly history := orderly.1

theorem Orderly.suffix (orderly : Orderly later) (suffix : history <:+ later) : Orderly history :=
  Each.suffix orderly suffix

section Decidable

def Mark.commits (askId : String) : Mark → Bool
  | .committed id _ => id = askId
  | _ => false

theorem committed_iff : Committed askId history ↔ ∃ mark ∈ history, mark.commits askId = true := by
  constructor
  · rintro ⟨reply, member⟩
    exact ⟨_, member, by simp [Mark.commits]⟩
  · rintro ⟨mark, member, commits⟩
    cases mark <;> simp [Mark.commits] at commits
    subst commits
    exact ⟨_, member⟩

instance : Decidable (Committed askId history) := decidable_of_iff _ committed_iff.symm

instance : ∀ mark, Decidable (Fits earlier mark)
  | .notified _ => inferInstanceAs (Decidable (_ ≤ _))
  | .registered _ _ _ | .slept _ _ => inferInstanceAs (Decidable (_ → _))
  | .committed _ _ => inferInstanceAs (Decidable (_ = _))
  | .firstRead _ _ | .woke _ _ | .resumed _ _ | .reread _ _ | .fetching _ _ _ | .passed _
  | .restarted =>
    .isTrue trivial

instance : Decidable (Orderly history) := inferInstanceAs (Decidable (Each Fits history))

end Decidable

section Wakers

private theorem lookup_filter_ne {entries : List (String × Notify)} (apart : other ≠ askId) :
    (entries.filter fun entry => entry.1 ≠ askId).lookup other = entries.lookup other := by
  induction entries with
  | nil => rfl
  | cons entry rest ih =>
    obtain ⟨name, n⟩ := entry
    by_cases here : name = askId
    · have differs : (other == name) = false := by simpa [here] using apart
      rw [List.filter_cons_of_neg (by simpa using here), List.lookup_cons, differs, ih]
    · rw [List.filter_cons_of_pos (by simpa using here), List.lookup_cons, List.lookup_cons, ih]

theorem Memory.waker_setWaker (m : Memory) (askId other : String) (n : Notify) :
    (m.setWaker askId n).waker other = if other = askId then some n else m.waker other := by
  simp only [Memory.waker, Memory.setWaker, List.lookup_cons]
  by_cases same : other = askId
  · simp [same]
  · have differs : (other == askId) = false := by simpa using same
    rw [differs, if_neg same]
    exact lookup_filter_ne same

theorem Memory.wakerOrNew_setWaker (m : Memory) (askId other : String) (n : Notify) :
    (m.setWaker askId n).wakerOrNew other = if other = askId then n else m.wakerOrNew other := by
  simp only [Memory.wakerOrNew, Memory.waker_setWaker]
  split <;> rfl

end Wakers

/-- The state of the wakers agrees with the recorded history. -/
structure Waking (w : World) : Prop where
  permits : ∀ askId, (w.memory.wakerOrNew askId).permit = true →
    (w.memory.wakerOrNew askId).waiting = []
  waiting : ∀ askId, ∀ task ∈ (w.memory.wakerOrNew askId).waiting,
    task ∈ inProgress askId w.history
  single : ∀ askId,
    ((w.memory.wakerOrNew askId).waiting ++ (w.memory.wakerOrNew askId).notified).Nodup
  once : ∀ askId, (inProgress askId w.history).Nodup
  known : ∀ askId, ∀ task ∈ inProgress askId w.history, (w.memory.waker askId).isSome
  served : Orderly w.history → ∀ askId, Mark.notified askId ∈ w.history →
    ∀ task ∈ inProgress askId w.history, inProgress askId w.history = [task] ∧
      ((w.memory.wakerOrNew askId).permit = true ∨ task ∈ (w.memory.wakerOrNew askId).notified)
  punctual : Orderly w.history → Punctual w.history

namespace Waking

theorem initial (empty : w.memory.askWakers = []) (unmarked : w.history = []) : Waking w := by
  constructor <;> simp [empty, unmarked, Memory.wakerOrNew, Memory.waker, Notify.new, inProgress,
    Punctual, Each]

/-- Steps that touch neither wakers nor history. -/
theorem frame (waking : Waking w) (wakers : w'.memory.askWakers = w.memory.askWakers)
    (history : w'.history = w.history) : Waking w' := by
  have same : w'.memory.waker = w.memory.waker := by
    funext askId
    rw [Memory.waker, Memory.waker, wakers]
  have same' : w'.memory.wakerOrNew = w.memory.wakerOrNew := by
    funext askId
    rw [Memory.wakerOrNew, Memory.wakerOrNew, same]
  constructor
  · rw [same']; exact waking.permits
  · rw [same', history]; exact waking.waiting
  · rw [same']; exact waking.single
  · rw [history]; exact waking.once
  · rw [same, history]; exact waking.known
  · rw [same', history]; exact waking.served
  · rw [history]; exact waking.punctual

/-- A mark that no await waits by. -/
theorem mark {mark : Mark} (waking : Waking w) (wakers : w'.memory.askWakers = w.memory.askWakers)
    (history : w'.history = mark :: w.history)
    (aside : ∀ askId, inProgress askId (mark :: w.history) = inProgress askId w.history)
    (silent : ∀ askId, mark ≠ .notified askId) (awake : ∀ task askId, mark ≠ .slept task askId) :
    Waking w' := by
  have base : Waking { w' with history := w.history } := waking.frame wakers rfl
  constructor
  · exact base.permits
  · rw [history]; exact fun askId => (aside askId).symm ▸ base.waiting askId
  · exact base.single
  · rw [history]; exact fun askId => (aside askId).symm ▸ base.once askId
  · rw [history]; exact fun askId => (aside askId).symm ▸ base.known askId
  · rw [history]
    intro orderly askId notified
    rw [aside askId]
    refine base.served orderly.earlier askId ?_
    rcases List.mem_cons.mp notified with this | earlier
    · exact absurd this.symm (silent askId)
    · exact earlier
  · rw [history]
    exact fun orderly => ⟨base.punctual orderly.earlier,
      fun task askId same => absurd same (awake task askId)⟩

/-- Passages of deliveries. -/
theorem passed (waking : Waking w) (moves : List Passage)
    (wakers : w'.memory.askWakers = w.memory.askWakers)
    (history : w'.history = moves.map .passed ++ w.history) : Waking w' := by
  induction moves generalizing w' with
  | nil => exact waking.frame wakers history
  | cons passage rest ih =>
    have before : Waking { w' with history := rest.map .passed ++ w.history } := ih wakers rfl
    exact before.mark rfl history (fun _ => rfl) (fun _ h => by cases h) fun _ _ h => by cases h

/-- The waker of one ask is replaced. -/
private theorem setWaker_of (waking : Waking w) {n : Notify} {askId : String}
    (permits : n.permit = true → n.waiting = [])
    (waiting : ∀ task ∈ n.waiting, task ∈ inProgress askId history)
    (single : (n.waiting ++ n.notified).Nodup)
    (others : ∀ other, other ≠ askId → inProgress other history = inProgress other w.history)
    (once : (inProgress askId history).Nodup)
    (served : Orderly history → ∀ other, Mark.notified other ∈ history →
      (other ≠ askId → Orderly w.history ∧ Mark.notified other ∈ w.history) ∧
      (other = askId → ∀ task ∈ inProgress askId history, inProgress askId history = [task] ∧
        (n.permit = true ∨ task ∈ n.notified)))
    (punctual : Orderly history → Punctual history) :
    Waking { w with memory := w.memory.setWaker askId n, history := history } := by
  constructor
  · intro other
    simp only [Memory.wakerOrNew_setWaker]
    split
    · exact permits
    · exact waking.permits other
  · intro other
    simp only [Memory.wakerOrNew_setWaker]
    split
    · rename_i same; subst same; exact waiting
    · rename_i apart; rw [others other apart]; exact waking.waiting other
  · intro other
    simp only [Memory.wakerOrNew_setWaker]
    split
    · exact single
    · exact waking.single other
  · intro other
    by_cases same : other = askId
    · subst same; exact once
    · show (inProgress other history).Nodup
      rw [others other same]; exact waking.once other
  · intro other task progress
    simp only [Memory.waker_setWaker]
    split
    · rfl
    · rename_i apart
      exact waking.known other task (by rw [← others other apart]; exact progress)
  · intro orderly other notified task progress
    simp only [Memory.wakerOrNew_setWaker]
    obtain ⟨old, new⟩ := served orderly other notified
    by_cases same : other = askId
    · subst same
      rw [if_pos rfl]
      exact new rfl task progress
    · rw [if_neg same]
      have here : inProgress other history = inProgress other w.history := others other same
      show inProgress other history = [task] ∧ _
      rw [here]
      exact waking.served (old same).1 other (old same).2 task (by rw [← here]; exact progress)
  · exact punctual

theorem registered (waking : Waking w) (idle : task ∉ inProgress askId w.history) :
    Waking ((registerWaker task askId).exec w).2 := by
  have progress : ∀ permit, inProgress askId (.registered task askId permit :: w.history) =
      task :: inProgress askId w.history := fun permit => by simp [inProgress]
  simp only [registerWaker, Action.exec_step]
  refine waking.setWaker_of (waking.permits askId) (fun t h => ?_) (waking.single askId)
    (fun other apart => ?_) ?_ ?_ ?_
  · rw [progress]; exact List.mem_cons_of_mem _ (waking.waiting askId t h)
  · simp [inProgress, Ne.symm apart]
  · rw [progress]; exact List.nodup_cons.mpr ⟨idle, waking.once askId⟩
  · intro orderly other notified
    have before : Mark.notified other ∈ w.history := by simpa using notified
    refine ⟨fun _ => ⟨orderly.earlier, before⟩, fun same t progressing => ?_⟩
    subst same
    obtain ⟨permit, alone⟩ := orderly.2 before
    rw [progress, alone] at progressing ⊢
    cases List.mem_singleton.mp progressing
    exact ⟨rfl, .inl permit⟩
  · exact fun orderly => ⟨waking.punctual orderly.earlier, fun _ _ same => by cases same⟩

/-- An await that stops waiting: with a notification sent, nobody else was served. -/
private theorem stopped (waking : Waking w) {mark : Mark} {n : Notify}
    (ends : mark = .woke task askId ∨ mark = .slept task askId)
    (progressing : task ∈ inProgress askId w.history)
    (permits : n.permit = true → n.waiting = [])
    (waiting : ∀ t ∈ n.waiting, t ∈ (w.memory.wakerOrNew askId).waiting ∧ t ≠ task)
    (single : (n.waiting ++ n.notified).Nodup)
    (punctual : Orderly (mark :: w.history) → mark = .slept task askId →
      ¬ Committed askId w.history) :
    Waking { w with
      memory := w.memory.setWaker askId n, history := mark :: w.history } := by
  have progress : ∀ other, inProgress other (mark :: w.history) =
      if askId = other then (inProgress other w.history).erase task
      else inProgress other w.history := by
    rcases ends with rfl | rfl <;> exact fun other => rfl
  refine waking.setWaker_of permits (fun t h => ?_) single (fun other apart => ?_) ?_ ?_ ?_
  · obtain ⟨before, other⟩ := waiting t h
    rw [progress, if_pos rfl]
    exact (List.mem_erase_of_ne other).mpr (waking.waiting askId t before)
  · rw [progress, if_neg (Ne.symm apart)]
  · rw [progress, if_pos rfl]; exact (waking.once askId).erase task
  · intro orderly other notified
    have before : Mark.notified other ∈ w.history := by
      rcases ends with rfl | rfl <;> simpa using notified
    refine ⟨fun _ => ⟨orderly.earlier, before⟩, fun same t left => ?_⟩
    subst same
    have alone := (waking.served orderly.earlier other before task progressing).1
    rw [progress, if_pos rfl, alone] at left
    simp at left
  · intro orderly
    refine ⟨waking.punctual orderly.earlier, fun t id same => ?_⟩
    rcases ends with rfl | rfl
    · cases same
    · cases same; exact punctual orderly rfl

theorem polled (waking : Waking w) (progressing : task ∈ inProgress askId w.history)
    (unqueued : Unqueued task askId w.memory) : Waking ((pollWaker task askId).exec w).2 := by
  have single := waking.single askId
  simp only [pollWaker, Action.exec_step, Notify.poll]
  by_cases permit : (w.memory.wakerOrNew askId).permit = true
  · simp only [permit, if_true]
    refine waking.stopped (.inl rfl) progressing (fun h => by cases h) (fun t h => ?_) single
      (fun _ same => by cases same)
    exact ⟨h, fun same => unqueued.1 (same ▸ h)⟩
  · simp only [permit, Bool.false_eq_true, if_false]
    refine waking.setWaker_of (fun h => absurd h (by simp)) (fun t h => ?_) ?_
      (fun _ _ => rfl) (waking.once askId) ?_ waking.punctual
    · rcases List.mem_append.mp h with old | added
      · exact waking.waiting askId t old
      · cases List.mem_singleton.mp added; exact progressing
    · simp only [List.append_assoc, List.singleton_append]
      refine (List.perm_middle.nodup_iff).mpr (List.nodup_cons.mpr ⟨?_, single⟩)
      simpa using (show _ ∧ _ from unqueued)
    · intro orderly other notified
      refine ⟨fun _ => ⟨orderly, notified⟩, fun same t progressing' => ?_⟩
      subst same
      obtain ⟨_, served⟩ := waking.served orderly other notified task progressing
      rcases served with stored | queued
      · exact absurd stored permit
      · exact absurd queued unqueued.2

theorem polledAgain (waking : Waking w) (progressing : task ∈ inProgress askId w.history)
    (queued : Queued task askId w.memory) : Waking (pollWakerAgain task askId w).2 := by
  have single := waking.single askId
  have apart := (List.nodup_append.mp single).2.2
  simp only [pollWakerAgain, Notify.pollAgain]
  by_cases notified : task ∈ (w.memory.wakerOrNew askId).notified
  · simp only [notified, if_true]
    refine waking.stopped (.inl rfl) progressing (waking.permits askId)
      (fun t h => ⟨h, apart t h task notified⟩) (single.sublist ?_) (fun _ same => by cases same)
    exact List.Sublist.append_left List.erase_sublist _
  · simp only [notified, if_false]
    have waiting : task ∈ (w.memory.wakerOrNew askId).waiting := queued.resolve_right notified
    refine waking.stopped (.inr rfl) progressing (fun permit => ?_) (fun t h => ?_)
      (single.sublist ?_) fun orderly _ committed => ?_
    · have none := waking.permits askId permit
      show List.erase _ task = []
      rw [none]; rfl
    · refine ⟨List.mem_of_mem_erase h, fun same => ?_⟩
      subst same
      exact (List.nodup_append.mp single).1.not_mem_erase h
    · exact List.Sublist.append_right List.erase_sublist _
    · -- the ask was settled: the permit or the notification must have reached this await
      obtain ⟨_, served⟩ := waking.served orderly.earlier askId (orderly.2 committed) task progressing
      rcases served with stored | reached
      · rw [waking.permits askId stored] at waiting; cases waiting
      · exact notified reached

theorem notified (waking : Waking w) : Waking ((notifyAsker askId).exec w).2 := by
  have progress : ∀ other, inProgress other (.notified askId :: w.history) =
      inProgress other w.history := fun _ => rfl
  have punctual : Orderly (.notified askId :: w.history) → Punctual (.notified askId :: w.history) :=
    fun orderly => ⟨waking.punctual orderly.earlier, fun _ _ same => by cases same⟩
  have alone : Orderly (.notified askId :: w.history) → ∀ task ∈ inProgress askId w.history,
      inProgress askId w.history = [task] := by
    intro orderly task progressing
    have short : (inProgress askId w.history).length ≤ 1 := orderly.2
    obtain ⟨t, same⟩ := List.length_eq_one_iff.mp
      (Nat.le_antisymm short (List.length_pos_of_mem progressing))
    rw [same] at progressing ⊢
    rw [List.mem_singleton.mp progressing]
  have earlier : ∀ other, other ≠ askId → Mark.notified other ∈ .notified askId :: w.history →
      Mark.notified other ∈ w.history := by
    intro other apart mark
    rcases List.mem_cons.mp mark with this | before
    · cases this; exact absurd rfl apart
    · exact before
  simp only [notifyAsker, Action.exec_step]
  cases found : w.memory.waker askId with
  | none =>
    have nobody : inProgress askId w.history = [] := by
      refine List.eq_nil_iff_forall_not_mem.mpr fun task progressing => ?_
      have := waking.known askId task progressing
      rw [found] at this; cases this
    refine ⟨waking.permits, waking.waiting, waking.single, waking.once, waking.known, ?_, punctual⟩
    intro orderly other mark task progressing
    by_cases same : other = askId
    · subst same; rw [progress, nobody] at progressing; cases progressing
    · exact waking.served orderly.earlier other (earlier other same mark) task progressing
  | some n =>
    have here : w.memory.wakerOrNew askId = n := by simp [Memory.wakerOrNew, found]
    have single := here ▸ waking.single askId
    have waiting := here ▸ waking.waiting askId
    simp only
    cases queue : n.waiting with
    | nil =>
      simp only [Notify.notifyOne, queue]
      refine waking.setWaker_of (fun _ => rfl) (by simp) (by simpa [queue] using single)
        (fun _ _ => rfl) (waking.once askId) ?_ punctual
      exact fun orderly other mark => ⟨fun apart => ⟨orderly.earlier, earlier other apart mark⟩,
        fun _ task progressing => ⟨alone orderly task progressing, .inl rfl⟩⟩
    | cons oldest later =>
      simp only [Notify.notifyOne, queue]
      rw [queue] at single waiting
      refine waking.setWaker_of (fun permit => ?_)
        (fun t h => waiting t (List.mem_cons_of_mem _ h)) ?_ (fun _ _ => rfl) (waking.once askId)
        ?_ punctual
      · have none := waking.permits askId (by rw [here]; exact permit)
        rw [here, queue] at none; cases none
      · rw [← List.append_assoc]
        exact (List.perm_append_singleton oldest (later ++ n.notified)).nodup_iff.mpr single
      · refine fun orderly other mark => ⟨fun apart => ⟨orderly.earlier, earlier other apart mark⟩,
          fun _ task progressing => ⟨alone orderly task progressing, .inr ?_⟩⟩
        have only := alone orderly task progressing
        have first := waiting oldest List.mem_cons_self
        rw [only] at first
        cases List.mem_singleton.mp first
        exact List.mem_append_right _ List.mem_cons_self

theorem restarted (waking : Waking w) (empty : m.askWakers = []) :
    Waking { w with memory := m, history := .restarted :: w.history } := by
  constructor
  · simp [Memory.wakerOrNew, Memory.waker, empty, Notify.new]
  · simp [Memory.wakerOrNew, Memory.waker, empty, Notify.new]
  · simp [Memory.wakerOrNew, Memory.waker, empty, Notify.new]
  · simp [inProgress]
  · simp [inProgress]
  · simp [inProgress]
  · exact fun orderly => ⟨waking.punctual orderly.earlier, fun _ _ same => by cases same⟩

end Waking

variable [Platform]

/-- No step breaks the agreement of wakers and history. -/
theorem Statement.waking (step : Statement self w w') (waking : Waking w) : Waking w' := by
  cases step with
  | quiet same => exact waking.frame (by rw [same.memory]) same.history
  | counters _ _ | envelope _ _ _ | event _ | ask _ _ _ _ _ _ | binding _ _ _ =>
    exact waking.frame rfl rfl
  | delivery env recipient _ _ _ _ => exact waking.passed [_] rfl rfl
  | moved moves => exact waking.passed _ rfl (by rw [moveRows_history])
  | noted passage _ => exact waking.passed [passage] rfl rfl
  | memory m _ wakers => exact waking.frame wakers rfl
  | answered askId reply _ =>
    exact waking.mark rfl rfl (fun _ => rfl) (fun _ h => by cases h) fun _ _ h => by cases h
  | expired askId _ =>
    exact waking.mark rfl rfl (fun _ => rfl) (fun _ h => by cases h) fun _ _ h => by cases h
  | firstRead task ask _ _ =>
    exact waking.mark rfl rfl (fun _ => rfl) (fun _ h => by cases h) fun _ _ h => by cases h
  | resumed task askId _ =>
    exact waking.mark rfl rfl (fun _ => rfl) (fun _ h => by cases h) fun _ _ h => by cases h
  | reread task ask _ _ =>
    exact waking.mark rfl rfl (fun _ => rfl) (fun _ h => by cases h) fun _ _ h => by cases h
  | fetching task messageId _ =>
    exact waking.mark rfl rfl (fun _ => rfl) (fun _ h => by cases h) fun _ _ h => by cases h
  | registered task askId _ idle => exact waking.registered idle
  | polled task askId _ progressing unqueued => exact waking.polled progressing unqueued
  | polledAgain task askId _ progressing queued => exact waking.polledAgain progressing queued
  | notified askId => exact waking.notified
  | restarted m _ empty => exact waking.restarted empty

end Crewd.Bus
