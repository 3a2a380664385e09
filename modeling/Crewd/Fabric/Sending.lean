import Crewd.Fabric.Fifo

/-! Repeated follow-ups. `cell_send_task` takes an idempotency key as `cell_spawn` does,
and no section of it reads the key: each success is a job of its own. -/
namespace Crewd.Fabric
open Autocommit Concurrent Table

section Deciding
variable [Platform] {caller id : String} {p : CellSendTaskParams}
  {params : Params CellSendTaskParams}

/-- The last section of the call, and the answer made of it. -/
def sendOn (p : CellSendTaskParams) : Handler Answer := do
  let job ← locked (enqueueOn p)
  pure (.enqueued job.jobId)

def SendsOn (params : Params CellSendTaskParams)
    (code : Process World (Input Outside) (Except BusError Answer)) : Prop :=
  ∃ p, params.parsed = .ok p ∧ code = (sendOn p).run

theorem handleSendTask_decides (task : Nat) (caller : String) (params : Params CellSendTaskParams) :
    (service.program task (.sendTask caller params)).Decides (SendsOn params) Fails := by
  refine decides_bind fun _ => decides_parse fun p parsed => decides_bind fun _ => ?_
  exact .inl ⟨p, parsed, rfl⟩

theorem sendOn_step {code : Process World (Input Outside) (Except BusError Answer)}
    (ran : (sendOn p).run.step i w = some (code, t)) :
    t = ((enqueueOn p).exec (w.install i)).2 ∧
    code = .done (((enqueueOn p).exec (w.install i)).1.map fun job => .enqueued job.jobId) := by
  cases ran
  refine ⟨rfl, ?_⟩
  change ExceptT.bindCont _ ((enqueueOn p).exec (w.install i)).1 = _
  cases ((enqueueOn p).exec (w.install i)).1 with
  | ok job => rfl
  | error e => rfl

theorem sendsOn_final (params : Params CellSendTaskParams) : Final (SendsOn params) := by
  rintro _ i s code' t ⟨p, _, rfl⟩ ran
  exact ⟨_, (sendOn_step ran).2⟩

omit [Platform] in
/-- The move that answers a follow-up adds the job that it names. -/
structure Sending (p : CellSendTaskParams) (id : String) (before after : World) : Prop where
  fresh : ∀ j ∈ before.store.jobs, j.jobId ≠ id
  added : ∃ job, after.store.jobs = before.store.jobs ++ [job] ∧ job.jobId = id ∧
    job.crewdThreadId = p.crewdThreadId ∧ job.payload = p.message

theorem sending_move {b b' : FabricConfig} (reached : service.Reaches w b)
    (moved : service.next b (.run task x) = some b') (parsed : params.parsed = .ok p)
    (answered : b'.pool[task]? = some (.sendTask caller params, some (.done (.ok (.enqueued id))))) :
    Sending p id b.shared b'.shared := by
  obtain ⟨code, _, ⟨p', parsed', rfl⟩, ran⟩ := System.deciding_move (sendsOn_final params)
    (fun k => handleSendTask_decides k caller params) reached moved answered
    fun failed => failed _ rfl
  cases parsed.symm.trans parsed'
  obtain ⟨shared, answer⟩ := sendOn_step ran
  have done := (enqueueOn_meets p _ (World.at_snapshot (b.shared.install x))).2
  cases result : ((enqueueOn p).exec (b.shared.install x)).1 with
  | error e =>
    rw [result] at answer
    cases answer
  | ok job =>
    rw [result] at answer
    cases answer
    obtain ⟨cell, added, jobs⟩ := done job result
    rw [← shared] at jobs
    exact ⟨added.enqueues.fresh, job, jobs, rfl, added.thread, added.payload⟩

end Deciding

/-- The later call is answered with the job of the earlier one. -/
def Collapses (first second : Except BusError Answer) : Prop :=
  ∃ id, first = .ok (.enqueued id) ∧ second = .ok (.enqueued id)

/-- Two calls with the same thread, message and key are never answered with one job, and
where both succeed each adds its own. -/
theorem sent_task_never_replayed [Platform] {w : World} {b₁ b₁' b₂ b₂' : FabricConfig}
    {params₁ params₂ : Params CellSendTaskParams} {p : CellSendTaskParams}
    {answer₁ answer₂ : Except BusError Answer} (blank : Blank w) (reached : service.Reaches w b₁)
    (moved₁ : service.next b₁ (.run i x) = some b₁') (later : service.Leads b₁' b₂)
    (moved₂ : service.next b₂ (.run j y) = some b₂') (parsed₁ : params₁.parsed = .ok p)
    (parsed₂ : params₂.parsed = .ok p)
    (answered₁ : b₁'.pool[i]? = some (.sendTask caller params₁, some (.done answer₁)))
    (answered₂ : b₂'.pool[j]? = some (.sendTask caller params₂, some (.done answer₂))) :
    ¬ Collapses answer₁ answer₂ ∧
    ∀ id₁ id₂, answer₁ = .ok (.enqueued id₁) → answer₂ = .ok (.enqueued id₂) →
      id₁ ≠ id₂ ∧ Sending p id₁ b₁.shared b₁'.shared ∧ Sending p id₂ b₂.shared b₂'.shared := by
  have apart : ∀ id₁ id₂, answer₁ = .ok (.enqueued id₁) → answer₂ = .ok (.enqueued id₂) →
      id₁ ≠ id₂ ∧ Sending p id₁ b₁.shared b₁'.shared ∧ Sending p id₂ b₂.shared b₂'.shared := by
    rintro id₁ id₂ rfl rfl
    have first := sending_move reached moved₁ parsed₁ answered₁
    have second := sending_move ((reached.next moved₁).trans _ later) moved₂ parsed₂ answered₂
    refine ⟨fun same => ?_, first, second⟩
    obtain ⟨job, jobs, named, _⟩ := first.added
    have stored : ∃ j ∈ b₁'.shared.store.jobs, j.jobId = id₁ := by
      rw [jobs]
      exact ⟨job, List.mem_append_right _ List.mem_cons_self, named⟩
    obtain ⟨j, there, known⟩ := lasting (P := fun s => ∃ j ∈ s.store.jobs, j.jobId = id₁) blank
      (reached.next moved₁) (fun _ _ _ step _ ⟨old, known, named⟩ => by
        obtain ⟨j, kept, same⟩ := step.jobStep.rows.1 old known
        exact ⟨j, kept, (CellJob.fixed_inj same).1.trans named⟩) stored later
    exact second.fresh j there (known.trans same)
  refine ⟨?_, apart⟩
  rintro ⟨id, same₁, same₂⟩
  exact (apart id id same₁ same₂).1 rfl

section Sample

def keyedTask (key : String) : CellSendTaskParams := ⟨firstThread, "again", some key⟩

def followingUp (task : Nat) (key : String) (secs : Nat) : List (Move (Input Outside) Request Event) :=
  .call (.sendTask "coder" ⟨["crewd_thread_id", "message", "idempotency_key"], .ok (keyedTask key)⟩) ::
    sections task 1 secs

/-- The same follow-up twice, each up to its last section and then answered. -/
def sentTwice (key : String) : Option (FabricConfig × FabricConfig × FabricConfig × FabricConfig) := do
  let b₁ ← (sampleService.runs (System.dormant blankWorld) (start 1783242000 ::
    .event (.cellRegistered reviewer) :: spawning 0 "k1" 1783242000 ++
      followingUp 1 key 1783242001) : Option FabricConfig)
  let b₁' ← sampleService.next b₁ (.run 1 (moment 1783242001))
  let b₂ ← sampleService.runs b₁' (followingUp 2 key 1783242002)
  let b₂' ← sampleService.next b₂ (.run 2 (moment 1783242002))
  pure (b₁, b₁', b₂, b₂')

/-- The job with which a call of the follow-up was answered. -/
def sentJob (key : String) (c : FabricConfig) (task : Nat) : Option String :=
  match c.pool[task]? with
  | some (.sendTask "coder" ⟨_, .ok p⟩, some (.done (.ok (.enqueued id)))) =>
    if p = keyedTask key then some id else none
  | _ => none

theorem sentJob_answers {c : FabricConfig} {id : String} (sent : sentJob key c task = some id) :
    ∃ params : Params CellSendTaskParams, params.parsed = .ok (keyedTask key) ∧
      c.pool[task]? = some (.sendTask "coder" params, some (.done (.ok (.enqueued id)))) := by
  unfold sentJob at sent
  split at sent
  · rename_i keys p id' found
    split at sent
    · rename_i same
      cases sent
      exact ⟨⟨keys, .ok p⟩, congrArg Except.ok same, found⟩
    · cases sent
  · cases sent

def SentApart (key : String) (b₁' b₂' : FabricConfig) (id₁ id₂ : String) : Prop :=
  sentJob key b₁' 1 = some id₁ ∧ sentJob key b₂' 2 = some id₂ ∧ id₁ ≠ id₂

instance (id₁ id₂ : String) : Decidable (SentApart key b₁' b₂' id₁ id₂) :=
  inferInstanceAs (Decidable (_ ∧ _))

theorem sent_twice : ∃ b₁ b₁' b₂ b₂' id₁ id₂, sampleService.Reaches blankWorld b₁ ∧
    sampleService.next b₁ (.run 1 (moment 1783242001)) = some b₁' ∧ sampleService.Leads b₁' b₂ ∧
    sampleService.next b₂ (.run 2 (moment 1783242002)) = some b₂' ∧
    SentApart "k2" b₁' b₂' id₁ id₂ := by
  let _ := Platform.sample
  have ran : (sentTwice "k2").map (fun r => decide (SentApart "k2" r.2.1 r.2.2.2
      "0197d8a0-0000-7000-8000-000000000002" "0197d8a0-0000-7000-8000-000000000003")) =
        some true := by
    decide +kernel
  obtain ⟨⟨b₁, b₁', b₂, b₂'⟩, run, apart⟩ := Option.map_eq_some_iff.mp ran
  simp only [sentTwice, Option.bind_eq_bind, Option.bind_eq_some_iff, Option.pure_def,
    Option.some.injEq, Prod.mk.injEq] at run
  obtain ⟨_, first, _, moved, _, on, _, moved', rfl, rfl, rfl, rfl⟩ := run
  exact ⟨_, _, _, _, _, _, System.leads_of_runs _ first, moved, System.leads_of_runs _ on, moved',
    of_decide_eq_true apart⟩

theorem sent_task_never_replayed_again : ∃ b₁' b₂' id₁ id₂, sampleService.Leads b₁' b₂' ∧
    b₁'.answer 1 = some (.ok (.enqueued id₁)) ∧ b₂'.answer 2 = some (.ok (.enqueued id₂)) ∧
    ¬ Collapses (.ok (.enqueued id₁)) (.ok (.enqueued id₂)) := by
  let _ := Platform.sample
  obtain ⟨b₁, b₁', b₂, b₂', id₁, id₂, reached, moved₁, later, moved₂, sent₁, sent₂, _⟩ := sent_twice
  obtain ⟨params₁, parsed₁, answered₁⟩ := sentJob_answers sent₁
  obtain ⟨params₂, parsed₂, answered₂⟩ := sentJob_answers sent₂
  exact ⟨b₁', b₂', id₁, id₂, later.next moved₂, Config.answer_eq_some.mpr ⟨_, answered₁⟩,
    Config.answer_eq_some.mpr ⟨_, answered₂⟩, (sent_task_never_replayed blankWorld_blank reached moved₁
      later moved₂ parsed₁ parsed₂ answered₁ answered₂).1⟩

/-- Two calls with one key are answered with two jobs. -/
theorem same_key_sends_twice : ∃ b₁' b₂' id₁ id₂ params₁ params₂,
    sampleService.Reaches blankWorld b₁' ∧ sampleService.Leads b₁' b₂' ∧
    params₁.parsed = .ok ⟨firstThread, "again", some "k2"⟩ ∧ params₂.parsed = params₁.parsed ∧
    b₁'.pool[1]? = some (.sendTask "coder" params₁, some (.done (.ok (.enqueued id₁)))) ∧
    b₂'.pool[2]? = some (.sendTask "coder" params₂, some (.done (.ok (.enqueued id₂)))) ∧
    id₁ ≠ id₂ := by
  obtain ⟨b₁, b₁', b₂, b₂', id₁, id₂, reached, moved₁, later, moved₂, sent₁, sent₂, apart⟩ := sent_twice
  obtain ⟨params₁, parsed₁, answered₁⟩ := sentJob_answers sent₁
  obtain ⟨params₂, parsed₂, answered₂⟩ := sentJob_answers sent₂
  exact ⟨b₁', b₂', id₁, id₂, params₁, params₂, reached.next moved₁, later.next moved₂, parsed₁,
    parsed₂.trans parsed₁.symm, answered₁, answered₂, apart⟩

end Sample
end Crewd.Fabric
