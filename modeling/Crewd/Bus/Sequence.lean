import Crewd.Bus.Ceiling
import Crewd.Bus.Lawful

/-! Sequence numbers and the order of pulls. Where no broadcast follows another message of
its pair the numbers of the pair ascend, and a pull that shows a message finds every
earlier one of the pair settled or shows it before. -/
namespace Crewd.Bus
open Autocommit Concurrent History Table

variable {passed : List Passage} {recipient : String} {nowMs : Nat}

/-- What the pulls of the recipient returned, one after another. -/
def shownTo (recipient : String) : List Passage → List Envelope
  | [] => []
  | .shown r chosen :: earlier =>
    if r = recipient then shownTo recipient earlier ++ chosen else shownTo recipient earlier
  | _ :: earlier => shownTo recipient earlier

/-- A broadcast is the first message of each of its pairs, and no attempt failure is
recorded on a row that has been delivered. -/
def Sequential (passed : List Passage) : Passage → Prop
  | .enqueued env recipient => env.kind = .broadcast →
    ∀ entry ∈ enqueues passed, entry.2 = recipient → entry.1.fromCell ≠ env.fromCell
  | .moved .retried _ _ before _ => before ≠ .delivered
  | _ => True

instance : ∀ mark, Decidable (Sequential passed mark)
  | .enqueued .. | .moved .retried .. => by dsimp only [Sequential]; infer_instance
  | .moved .released .. | .moved .claimed .. | .moved .outcome .. | .moved .expired .. |
    .moved .pulled .. | .swept .. | .claiming .. | .offered .. | .applying .. | .announced .. |
    .pulling .. | .shown .. => instDecidableTrue

section Order

theorem Precedes.first (precedes : Precedes a b recipient passed) :
    (a, recipient) ∈ enqueues passed := by
  obtain ⟨later, before, same, inside⟩ := precedes
  rw [same]
  exact List.mem_append_right _ (List.mem_cons_of_mem _ inside)

theorem Precedes.second (precedes : Precedes a b recipient passed) :
    (b, recipient) ∈ enqueues passed := by
  obtain ⟨later, before, same, inside⟩ := precedes
  rw [same]
  exact List.mem_append_right _ List.mem_cons_self

/-- What precedes once a message is enqueued. -/
theorem precedes_enqueued {env : Envelope} {r : String} :
    Precedes a b recipient (.enqueued env r :: passed) ↔
      Precedes a b recipient passed ∨
        (b = env ∧ recipient = r ∧ (a, recipient) ∈ enqueues passed) := by
  have entries : enqueues (.enqueued env r :: passed) =
      (env, r) :: enqueues passed := rfl
  simp only [Precedes, entries]
  constructor
  · rintro ⟨later, before, same, inside⟩
    cases later with
    | nil =>
      obtain ⟨head, tail⟩ := List.cons.inj same
      obtain ⟨rfl, rfl⟩ := Prod.mk.inj head
      exact .inr ⟨rfl, rfl, tail ▸ inside⟩
    | cons entry rest => exact .inl ⟨rest, before, (List.cons.inj same).2, inside⟩
  · rintro (⟨later, before, same, inside⟩ | ⟨rfl, rfl, inside⟩)
    · exact ⟨(env, r) :: later, before, by rw [same]; rfl, inside⟩
    · exact ⟨[], _, rfl, inside⟩

/-- Two messages of a recipient were enqueued one before the other. -/
theorem precedes_total (first : (a, recipient) ∈ enqueues passed)
    (second : (b, recipient) ∈ enqueues passed) :
    a = b ∨ Precedes a b recipient passed ∨ Precedes b a recipient passed := by
  obtain ⟨later, before, same⟩ := List.append_of_mem first
  rw [same] at second
  rcases List.mem_append.mp second with after | here
  · obtain ⟨later', between, rfl⟩ := List.append_of_mem after
    exact .inr (.inl ⟨later', between ++ (a, recipient) :: before, by rw [same]; simp, by simp⟩)
  · rcases List.mem_cons.mp here with equal | inside
    · exact .inl (Prod.mk.inj equal).1.symm
    · exact .inr (.inr ⟨later, before, same, inside⟩)

end Order

/-- What a pull is about to show. -/
structure Chosen (recipient : String) (chosen : List Envelope) (passed : List Passage) : Prop where
  enqueued : ∀ env ∈ chosen, (env, recipient) ∈ enqueues passed
  ordered : chosen.Pairwise fun a b => a.fromCell = b.fromCell → Precedes a b recipient passed
  later : ∀ a ∈ shownTo recipient passed, ∀ b ∈ chosen, a.fromCell = b.fromCell →
    Precedes a b recipient passed
  whole : ∀ env ∈ chosen, ∀ earlier, earlier.fromCell = env.fromCell →
    Precedes earlier env recipient passed →
      earlier ∈ chosen ∨ SettledIn earlier.messageId recipient passed

structure Showing (passed : List Passage) : Prop where
  ascending : ∀ recipient a b, Precedes a b recipient passed → a.fromCell = b.fromCell → a.seq < b.seq
  enqueued : ∀ recipient, ∀ env ∈ shownTo recipient passed, (env, recipient) ∈ enqueues passed
  settled : ∀ recipient, ∀ env ∈ shownTo recipient passed, SettledIn env.messageId recipient passed
  whole : ∀ recipient, ∀ env ∈ shownTo recipient passed, ∀ earlier, earlier.fromCell = env.fromCell →
    Precedes earlier env recipient passed → SettledIn earlier.messageId recipient passed
  ordered : ∀ recipient, (shownTo recipient passed).Pairwise fun a b =>
    a.fromCell = b.fromCell → Precedes a b recipient passed
  pulling : ∀ recipient chosen nowMs,
    opening .pulled passed = some (.pulling recipient chosen nowMs) → Chosen recipient chosen passed

section Passing
variable {passed' : List Passage}

/-- Passages that enqueue and show nothing and leave settled what was settled. -/
structure Keeps (passed passed' : List Passage) : Prop where
  entries : enqueues passed' = enqueues passed
  shown : ∀ recipient, shownTo recipient passed' = shownTo recipient passed
  settled : ∀ m r, SettledIn m r passed → SettledIn m r passed'

theorem Keeps.precedes (keeps : Keeps passed passed') :
    Precedes a b recipient passed' ↔ Precedes a b recipient passed := by
  simp only [Precedes, keeps.entries]

theorem Chosen.keep (chosen : Chosen recipient envs passed) (keeps : Keeps passed passed') :
    Chosen recipient envs passed' where
  enqueued := by rw [keeps.entries]; exact chosen.enqueued
  ordered := by simpa only [keeps.precedes] using chosen.ordered
  later := by rw [keeps.shown]; simpa only [keeps.precedes] using chosen.later
  whole env member earlier sender precedes :=
    (chosen.whole env member earlier sender (keeps.precedes.mp precedes)).imp_right (keeps.settled _ _)

theorem Showing.keep (showing : Showing passed) (keeps : Keeps passed passed')
    (pulling : ∀ recipient chosen nowMs,
      opening .pulled passed' = some (.pulling recipient chosen nowMs) →
        Chosen recipient chosen passed') : Showing passed' where
  ascending r a b precedes := showing.ascending r a b (keeps.precedes.mp precedes)
  enqueued r := by rw [keeps.shown, keeps.entries]; exact showing.enqueued r
  settled r := by
    rw [keeps.shown]
    exact fun env member => keeps.settled _ _ (showing.settled r env member)
  whole r := by
    rw [keeps.shown]
    exact fun env member earlier sender precedes =>
      keeps.settled _ _ (showing.whole r env member earlier sender (keeps.precedes.mp precedes))
  ordered r := by
    rw [keeps.shown]
    simpa only [keeps.precedes] using showing.ordered r
  pulling := pulling

/-- A pull that returned has shown what it had chosen. -/
theorem Showing.show (showing : Showing passed) {chosen : List Envelope} {nowMs : Nat}
    (opened : opening .pulled passed = some (.pulling recipient chosen nowMs))
    (pulled : ∀ env ∈ chosen, SettledIn env.messageId recipient passed) :
    Showing (.shown recipient chosen :: passed) := by
  have choice := showing.pulling recipient chosen nowMs opened
  have shown : ∀ r, shownTo r (.shown recipient chosen :: passed) =
      if recipient = r then shownTo r passed ++ chosen else shownTo r passed := fun _ => rfl
  have member : ∀ r, ∀ env ∈ shownTo r (.shown recipient chosen :: passed),
      env ∈ shownTo r passed ∨ recipient = r ∧ env ∈ chosen := by
    intro r env inside
    rw [shown] at inside
    split at inside
    · exact (List.mem_append.mp inside).imp_right fun inside => ⟨‹_›, inside⟩
    · exact .inl inside
  constructor
  · exact showing.ascending
  · intro r env inside
    rcases member r env inside with before | ⟨rfl, new⟩
    · exact showing.enqueued r env before
    · exact choice.enqueued env new
  · intro r env inside
    rcases member r env inside with before | ⟨rfl, new⟩
    · exact showing.settled r env before
    · exact pulled env new
  · intro r env inside earlier sender precedes
    rcases member r env inside with before | ⟨rfl, new⟩
    · exact showing.whole r env before earlier sender precedes
    · rcases choice.whole env new earlier sender precedes with beside | settled
      · exact pulled earlier beside
      · exact settled
  · intro r
    rw [shown]
    split
    · rename_i same
      subst same
      exact List.pairwise_append.mpr ⟨showing.ordered _, choice.ordered, choice.later⟩
    · exact showing.ordered r
  · intro r envs now other
    cases other

/-- A new message comes after all others of its pair. -/
theorem Showing.enqueue (showing : Showing passed) {env : Envelope} {r : String}
    (new : ∀ other, (other, r) ∈ enqueues passed → other.messageId ≠ env.messageId)
    (number : ∀ earlier, (earlier, r) ∈ enqueues passed → earlier.fromCell = env.fromCell →
      earlier.seq < env.seq)
    (settled : ∀ m r', SettledIn m r' passed → SettledIn m r' (.enqueued env r :: passed)) :
    Showing (.enqueued env r :: passed) := by
  have old : ∀ recipient, ∀ other ∈ shownTo recipient passed, ∀ earlier,
      Precedes earlier other recipient (.enqueued env r :: passed) →
        Precedes earlier other recipient passed := by
    intro recipient other shown earlier precedes
    rcases precedes_enqueued.mp precedes with before | ⟨rfl, rfl, _⟩
    · exact before
    · exact absurd rfl (new other (showing.enqueued recipient other shown))
  constructor
  · intro recipient a b precedes sender
    rcases precedes_enqueued.mp precedes with before | ⟨rfl, rfl, inside⟩
    · exact showing.ascending recipient a b before sender
    · exact number a inside sender
  · exact fun recipient other shown => List.mem_cons_of_mem _ (showing.enqueued recipient other shown)
  · exact fun recipient other shown => settled _ _ (showing.settled recipient other shown)
  · exact fun recipient other shown earlier sender precedes => settled _ _
      (showing.whole recipient other shown earlier sender (old recipient other shown earlier precedes))
  · exact fun recipient => (showing.ordered recipient).imp fun precedes sender =>
      precedes_enqueued.mpr (.inl (precedes sender))
  · intro recipient chosen now opened
    cases opened

end Passing

section Pulling

theorem inboxOrder_sorted (st : Store) (recipient : String) :
    (st.inboxOrder recipient).Pairwise fun a b => a.seq ≤ b.seq := by
  have : Std.Total fun a b : Envelope => a.seq ≤ b.seq := ⟨fun a b => Nat.le_total a.seq b.seq⟩
  have : IsTrans Envelope fun a b => a.seq ≤ b.seq := ⟨fun _ _ _ => Nat.le_trans⟩
  exact List.pairwise_insertionSort _ _

/-- What is smaller than something taken is taken too. -/
theorem mem_take_of_sorted {α : Type} {key : α → Nat} {xs : List α} {a b : α} {count : Nat}
    (sorted : xs.Pairwise fun a b => key a ≤ key b) (taken : a ∈ xs.take count) (member : b ∈ xs)
    (smaller : key b < key a) : b ∈ xs.take count := by
  rw [← List.take_append_drop count xs] at sorted member
  rcases List.mem_append.mp member with inside | dropped
  · exact inside
  · have above := (List.pairwise_append.mp sorted).2.2 a taken b dropped
    omega

variable [Platform]

theorem Good.settledIn {w : World} (good : Good w) (member : d ∈ w.store.deliveries) :
    SettledIn d.envelopeId d.recipient (passages w.history) ↔ d.pending = false := by
  rw [SettledIn, good.passing.traced d member]
  have pending := Delivery.pending_iff (d := d)
  cases settled : d.state.settled <;> cases waiting : d.pending <;> simp_all

/-- A message whose row is not settled is found by a pull. -/
theorem Good.found {w : World} (good : Good w)
    (enqueued : (env, recipient) ∈ enqueues (passages w.history))
    (pending : ¬ SettledIn env.messageId recipient (passages w.history)) :
    env ∈ w.store.inboxOrder recipient := by
  obtain ⟨d, member, hit⟩ := good.passing.row_of_enqueued enqueued
  obtain ⟨id, rfl⟩ := delivery_is_iff.mp hit
  have waiting : d.pending = true := by
    rw [← id] at pending
    simpa using mt (good.settledIn member).mpr pending
  refine mem_inboxOrder.mpr ⟨d, member, rfl, waiting, ?_⟩
  rw [id]
  exact envelope_of_mem good.inv.envelopesOnce (good.passing.stored _ enqueued)

/-- What a pull finds is enqueued and not settled. -/
theorem Good.waiting {w : World} (good : Good w) (member : env ∈ w.store.inboxOrder recipient) :
    (env, recipient) ∈ enqueues (passages w.history) ∧
      ¬ SettledIn env.messageId recipient (passages w.history) := by
  obtain ⟨d, stored, rfl, pending, found⟩ := mem_inboxOrder.mp member
  refine ⟨good.enqueued_of_found stored found, fun settled => ?_⟩
  rw [(envelope_found found).2, good.settledIn stored, pending] at settled
  cases settled

theorem Good.chosen {w : World} (good : Good w) (showing : Showing (passages w.history))
    (limit : Nat) : Chosen recipient ((w.store.inboxOrder recipient).take limit)
      (passages w.history) := by
  have sorted := inboxOrder_sorted w.store recipient
  have waiting := fun env (taken : env ∈ (w.store.inboxOrder recipient).take limit) =>
    good.waiting (List.mem_of_mem_take taken)
  constructor
  · exact fun env taken => (waiting env taken).1
  · have once : ((w.store.inboxOrder recipient).take limit).Nodup :=
      (inboxOrder_once good.inv.deliveriesOnce).of_map _ |>.sublist (List.take_sublist _ _)
    refine ((sorted.sublist (List.take_sublist limit _)).and once).imp_of_mem
      fun {a b} first second both sender => ?_
    rcases precedes_total (waiting a first).1 (waiting b second).1 with same | before | after
    · exact absurd same both.2
    · exact before
    · have less := showing.ascending recipient b a after sender.symm
      omega
  · intro a shown b taken sender
    rcases precedes_total (showing.enqueued recipient a shown) (waiting b taken).1 with
      same | before | after
    · rw [same] at shown
      exact absurd (showing.settled recipient b shown) (waiting b taken).2
    · exact before
    · exact absurd (showing.whole recipient a shown b sender.symm after) (waiting b taken).2
  · intro env taken earlier sender precedes
    by_cases settled : SettledIn earlier.messageId recipient (passages w.history)
    · exact .inr settled
    · exact .inl (mem_take_of_sorted sorted taken (good.found precedes.first settled)
        (showing.ascending recipient earlier env precedes sender))

/-- Rows that were settled stay settled when an update revives none. -/
theorem Good.settled_moved {w : World} {cause : Cause} {p : Delivery → Bool}
    {f : Delivery → Delivery} (good : Good w)
    (lasting : ∀ d ∈ w.store.deliveries, p d = true → d.state.settled = true →
      (f d).state.settled = true) (m r : String) (settled : SettledIn m r (passages w.history)) :
    SettledIn m r (passages (moveRows cause p f w).history) := by
  rw [passages_moveRows, SettledIn]
  by_cases touched : ∃ d ∈ w.store.deliveries.filter p, d.envelopeId = m ∧ d.recipient = r
  · obtain ⟨d, member, rfl, rfl⟩ := touched
    obtain ⟨stored, hit⟩ := List.mem_filter.mp member
    rw [stateOf_moved (good.inv.deliveriesOnce.sublist (List.filter_sublist.map _)) member]
    have before := (good.settledIn stored).mp settled
    refine lasting d stored hit ?_
    rw [← Bool.not_eq_false, ← Delivery.pending_iff, before]
    decide
  · rw [stateOf_unmoved fun d member same => touched ⟨d, member, same⟩]
    exact settled

omit [Platform] in
/-- The batch of updates that follows a pull is a batch of pulls. -/
theorem opening_pulling {cause : Cause} {f : Delivery → Delivery} {rows : List Delivery}
    (opened : opening .pulled (moveMarks cause f rows ++ passed) =
      some (.pulling recipient chosen nowMs)) :
    opening .pulled passed = some (.pulling recipient chosen nowMs) := by
  cases rows with
  | nil => exact opened
  | cons d rest =>
    by_cases pull : cause = .pulled
    · subst pull
      rwa [opening_moves movedBy_moveMarks] at opened
    · simp [moveMarks, opening, pull] at opened

theorem Change.showing (change : Change actor s t) (good : Good s)
    (fitting : Each Sequential (passages t.history)) (lawful : Each Lawful (passages t.history))
    (showing : Showing (passages s.history)) :
    Showing (passages t.history) := by
  cases change with
  | still _ same => rwa [same]
  | moved moves =>
    rename_i cause p f
    have lasting : ∀ d ∈ s.store.deliveries, p d = true → d.state.settled = true →
        (f d).state.settled = true := by
      intro d member touched
      rw [passages_moveRows] at fitting
      obtain ⟨before, fit⟩ := fits_moves fitting (List.mem_filter.mpr ⟨member, touched⟩)
      refine moves.lasting member touched ?_
      rintro rfl
      exact fit
    have keeps : Keeps (passages s.history) (passages (moveRows cause p f s).history) := by
      refine ⟨?_, fun r => ?_, good.settled_moved lasting⟩
      · rw [passages_moveRows, enqueues_moves isMove_moveMarks]
      · rw [passages_moveRows]
        exact skip_moves isMove_moveMarks fun _ _ _ _ _ _ => rfl
    refine showing.keep keeps fun r chosen now opened => ?_
    rw [passages_moveRows] at opened
    exact (showing.pulling r chosen now (opening_pulling opened)).keep keeps
  | enqueued env recipient known new admissible =>
    have fresh : ∀ other, (other, recipient) ∈ enqueues (passages s.history) →
        other.messageId ≠ env.messageId := by
      intro other enqueued same
      obtain ⟨d, member, hit⟩ := good.passing.row_of_enqueued enqueued
      rw [same, new d member] at hit
      cases hit
    refine showing.enqueue fresh (fun earlier enqueued sender => ?_) fun m r settled => ?_
    · by_cases fanned : env.kind = .broadcast
      · exact absurd sender (fitting.2 fanned _ enqueued rfl)
      · exact (admissible.numbered fanned).2 earlier enqueued sender
    · by_cases same : env.messageId = m ∧ recipient = r
      · obtain ⟨rfl, rfl⟩ := same
        have unknown : stateOf env.messageId recipient (passages s.history) = none := lawful.2
        rw [SettledIn, unknown] at settled
        cases settled
      · simpa [SettledIn, stateOf, same] using settled
  | noted passage notes =>
    have keeps (quiet : ∀ r, shownTo r (passage :: passages s.history) =
        shownTo r (passages s.history)) : Keeps (passages s.history)
          (passages (Mark.passed passage :: s.history)) := by
      refine ⟨?_, quiet, fun m r settled => ?_⟩
      · cases notes <;> rfl
      · have same : stateOf m r (passage :: passages s.history) = stateOf m r (passages s.history) := by
          cases notes <;> rfl
        rwa [SettledIn, passages_passed, same]
    cases notes with
    | shown recipient chosen nowMs opened pulled =>
      refine showing.show opened fun env member => ?_
      obtain ⟨d, stored, hit⟩ :=
        good.passing.row_of_enqueued ((showing.pulling _ _ _ opened).enqueued env member)
      obtain ⟨id, rfl⟩ := delivery_is_iff.mp hit
      rw [← id]
      exact (good.settledIn stored).mpr (pulled env member d stored hit)
    | pulling recipient limit nowMs =>
      refine showing.keep (keeps fun _ => rfl) fun r chosen now opened => ?_
      simp only [passages_passed, opening, Option.some.injEq, Passage.pulling.injEq] at opened
      obtain ⟨rfl, rfl, rfl⟩ := opened
      exact (good.chosen showing limit).keep (keeps fun _ => rfl)
    | _ => exact showing.keep (keeps fun _ => rfl) fun r chosen now opened => by cases opened

end Pulling

/-- In a run in which every broadcast comes first in its pairs and no attempt failure is
recorded on a pulled row, the numbers of each pair ascend as its messages are enqueued,
and the pulls of a recipient show the messages of each sender in that order. -/
theorem pairs_in_sequence [Platform] (blank : Blank w) (path : service.Reaches w c)
    (sequential : Each Sequential (passages c.shared.history)) :
    (∀ recipient a b, Precedes a b recipient (passages c.shared.history) →
      a.fromCell = b.fromCell → a.seq < b.seq) ∧
    ∀ recipient, (shownTo recipient (passages c.shared.history)).Pairwise fun a b =>
      a.fromCell = b.fromCell → Precedes a b recipient (passages c.shared.history) := by
  have kept : Each Lawful (passages c.shared.history) ∧ Showing (passages c.shared.history) := by
    refine always_where (P := fun s => Each Lawful (passages s.history) ∧
      Showing (passages s.history)) blank path sequential ?_
      fun actor s t change good fitting ⟨lawful, showing⟩ => ?_
    · rw [blank.history]
      refine ⟨trivial, ?_⟩
      constructor <;> simp [passages, shownTo, Precedes, enqueues, opening]
    · have claimed : Each RetriesClaimed (passages t.history) := by
        refine fitting.imp fun earlier mark fit => ?_
        unfold RetriesClaimed
        split
        · exact fit
        · trivial
      have lawful' := change.lawful good claimed lawful
      exact ⟨lawful', change.showing good fitting lawful' showing⟩
  exact ⟨kept.2.ascending, kept.2.ordered⟩

section Sample

theorem pairs_in_sequence_pulled : ∃ c, sampleService.Reaches blankWorld c ∧
    (shownTo "reviewer" (passages c.shared.history)).map (·.seq) = [0, 1, 2] ∧
    (shownTo "reviewer" (passages c.shared.history)).Pairwise fun a b =>
      a.fromCell = b.fromCell → Precedes a b "reviewer" (passages c.shared.history) := by
  let _ := Platform.sample
  have ran : (sampleService.runs (System.dormant blankWorld)
      (startWith sampleStart :: broadcasting 0 "coder" "k1" 1783242000 ++
        sending 1 "coder" "reviewer" "k2" 1783242001 ++ pulling 2 "reviewer" 1783242002 ++
        sending 3 "coder" "reviewer" "k3" 1783242003 ++ pulling 4 "reviewer" 1783242004)).map
      (fun c => decide (
        (shownTo "reviewer" (passages c.shared.history)).map (·.seq) = [0, 1, 2] ∧
        Each Sequential (passages c.shared.history))) = some true := by
    decide +kernel
  obtain ⟨c, run, facts⟩ := Option.map_eq_some_iff.mp ran
  obtain ⟨shown, sequential⟩ := of_decide_eq_true facts
  have path : sampleService.Reaches blankWorld c := System.leads_of_runs _ run
  exact ⟨c, path, shown, (pairs_in_sequence blankWorld_blank path sequential).2 "reviewer"⟩

/-- A broadcast after a send carries the smaller number and is shown before it. -/
theorem broadcast_shown_first : ∃ c, sampleService.Reaches blankWorld c ∧
    (shownTo "reviewer" (passages c.shared.history)).map (fun env => (env.kind, env.seq)) =
      [(.broadcast, 0), (.send, 1)] ∧
    ¬ (∀ recipient a b, Precedes a b recipient (passages c.shared.history) →
      a.fromCell = b.fromCell → a.seq < b.seq) ∧
    ¬ (shownTo "reviewer" (passages c.shared.history)).Pairwise fun a b =>
      a.fromCell = b.fromCell → Precedes a b "reviewer" (passages c.shared.history) := by
  let _ := Platform.sample
  have ran : (sampleService.runs (System.dormant blankWorld)
      (startWith sampleStart :: sending 0 "coder" "reviewer" "k1" 1783242000 ++
        broadcasting 1 "coder" "k2" 1783242001 ++ pulling 2 "reviewer" 1783242002)).map
      (fun c => decide (
        (shownTo "reviewer" (passages c.shared.history)).map (fun env => (env.kind, env.seq)) =
          [(.broadcast, 0), (.send, 1)] ∧
        ∃ a ∈ c.shared.store.envelopes, ∃ b ∈ c.shared.store.envelopes,
          enqueues (passages c.shared.history) = [(b, "reviewer"), (b, "ops"), (a, "reviewer")] ∧
          shownTo "reviewer" (passages c.shared.history) = [b, a] ∧
          a.fromCell = b.fromCell ∧ b.seq < a.seq)) = some true := by
    decide +kernel
  obtain ⟨c, run, facts⟩ := Option.map_eq_some_iff.mp ran
  obtain ⟨kinds, a, _, b, _, entries, shown, sender, less⟩ := of_decide_eq_true facts
  refine ⟨c, System.leads_of_runs _ run, kinds, fun ascending => ?_, fun ordered => ?_⟩
  · have precedes : Precedes a b "reviewer" (passages c.shared.history) :=
      ⟨[], [(b, "ops"), (a, "reviewer")], entries, by simp⟩
    have more := ascending "reviewer" a b precedes sender
    omega
  · rw [shown] at ordered
    obtain ⟨later, before, split, inside⟩ := (List.pairwise_cons.mp ordered).1 a (by simp) sender.symm
    rw [entries] at split
    match later, split with
    | [], split =>
      cases (Prod.mk.inj (List.cons.inj split).1).1
      omega
    | [_], split => simp at split
    | [_, _], split =>
      simp only [List.cons_append, List.nil_append, List.cons.injEq] at split
      rw [← split.2.2.2] at inside
      cases inside
    | _ :: _ :: _ :: _, split => simp at split

end Sample
end Crewd.Bus
