import Crewd.Bus.Deliverable
import Crewd.Bus.Sequence

/-! Pulling an inbox page by page. Each pull takes the first messages in the order of
their numbers and marks their rows, so pulls that follow one another partition what is
pending, with nothing twice and nothing left over. -/
namespace Crewd.Bus
open Autocommit Concurrent Table

/-- Each delivery row has its envelope, and a message is delivered to a recipient by
one row. -/
structure Store.Filed (st : Store) : Prop where
  known : ∀ d ∈ st.deliveries, (st.envelope d.envelopeId).isSome
  once : (st.deliveries.map fun d => (d.envelopeId, d.recipient)).Nodup

theorem Good.filed [Platform] {w : World} (good : Good w) : w.store.Filed := by
  refine ⟨fun d stored => ?_, good.inv.deliveriesOnce⟩
  obtain ⟨env, listed, same⟩ := good.inv.deliveryKnown d stored
  rw [← same, envelope_of_mem good.inv.envelopesOnce listed]
  rfl

/-- The messages that are pending for the recipient. -/
def Store.awaited (st : Store) (recipient : String) : List String :=
  (st.deliveries.filter fun d => d.recipient = recipient && d.pending).map (·.envelopeId)

/-- A pull that succeeds, whatever the clock, the memory and the chain are. -/
def PullsPage (recipient : String) (limit : Nat) (st st' : Store) (messages : List Envelope)
    (more : Bool) : Prop :=
  ∃ w w', w.store = st ∧ w'.store = st' ∧
    (inbox recipient limit).exec w = (.ok (messages, more), w')

/-- Pulls with no other operation in between. -/
inductive PullsPages (recipient : String) (limit : Nat) :
    Store → Store → List (List Envelope) → Prop where
  | none (st) : PullsPages recipient limit st st []
  | next : PullsPage recipient limit st st' messages more →
      PullsPages recipient limit st' st'' pages →
      PullsPages recipient limit st st'' (messages :: pages)

/-- The identifiers of the messages on a page. -/
def pageIds (messages : List Envelope) : List String := messages.map (·.messageId)

/-- What one pull returns and changes. -/
structure PageLaw (recipient : String) (limit : Nat) (st st' : Store) (messages : List Envelope)
    (more : Bool) : Prop where
  few : messages.length ≤ limit
  sorted : messages.Pairwise (·.seq ≤ ·.seq)
  pending : ∀ env ∈ messages, env.messageId ∈ st.awaited recipient ∧
    st.envelope env.messageId = some env
  first : ∀ id ∈ st.awaited recipient, ∀ env, st.envelope id = some env →
    ∀ taken ∈ messages, env.seq < taken.seq → env ∈ messages
  marked : st' = { st with deliveries := st.deliveries.map fun d =>
    if d.recipient = recipient ∧ d.envelopeId ∈ pageIds messages then
      { d with state := .delivered, leaseUntil := none } else d }
  more : more = true ↔ st'.awaited recipient ≠ []

section Reading
variable {st : Store} {recipient : String} {limit : Nat}

theorem joined_filter {keep : Delivery → Bool}
    (known : ∀ d ∈ st.deliveries, (st.envelope d.envelopeId).isSome) :
    (st.joined fun d _ => keep d).map (·.1) = st.deliveries.filter keep := by
  unfold Store.joined
  revert known
  generalize st.deliveries = rows
  intro known
  induction rows with
  | nil => rfl
  | cons d rest ih =>
    have later := ih fun row inside => known row (List.mem_cons_of_mem _ inside)
    obtain ⟨env, found⟩ := Option.isSome_iff_exists.mp (known d List.mem_cons_self)
    cases kept : keep d <;> simp [found, kept, ← later]

/-- Every pending message is found by a pull. -/
theorem inboxOrder_perm (filed : st.Filed) :
    (pageIds (st.inboxOrder recipient)).Perm (st.awaited recipient) := by
  refine ((List.perm_insertionSort _ _).map _).trans (List.Perm.of_eq ?_)
  have named : (st.joined fun d _ => d.recipient = recipient && d.pending).map
      (fun row => row.2.messageId) =
      (st.joined fun d _ => d.recipient = recipient && d.pending).map fun row => row.1.envelopeId :=
    List.map_congr_left fun row member => joined_key member
  rw [Store.awaited, ← joined_filter filed.known, List.map_map, List.map_map]
  exact named

theorem pageIds_once (filed : st.Filed) : (pageIds (st.inboxOrder recipient)).Nodup := by
  have once : ((st.inboxOrder recipient).map fun env => (env.messageId, recipient)).Nodup :=
    inboxOrder_once filed.once
  have named : (st.inboxOrder recipient).map (fun env => (env.messageId, recipient)) =
      (pageIds (st.inboxOrder recipient)).map fun id => (id, recipient) := by
    rw [pageIds, List.map_map]
    rfl
  rw [named] at once
  exact once.of_map _

theorem mem_awaited {id : String} : id ∈ st.awaited recipient ↔
    ∃ d ∈ st.deliveries, d.envelopeId = id ∧ d.recipient = recipient ∧ d.pending = true := by
  simp only [Store.awaited, List.mem_map, List.mem_filter, Bool.and_eq_true, decide_eq_true_eq]
  constructor
  · rintro ⟨d, ⟨stored, address, waiting⟩, same⟩
    exact ⟨d, stored, same, address, waiting⟩
  · rintro ⟨d, stored, same, address, waiting⟩
    exact ⟨d, ⟨stored, address, waiting⟩, same⟩

end Reading

section Marking
variable {st : Store} {recipient : String} {limit : Nat} {messages : List Envelope}

/-- Marking one more row after others. -/
theorem mark_concat (keys : List (String × String)) (messageId : String) (rows : List Delivery) :
    updateWhere (·.is messageId recipient) Delivery.pulled
      (updateWhere (fun d => (d.envelopeId, d.recipient) ∈ keys) Delivery.pulled rows) =
    updateWhere (fun d => (d.envelopeId, d.recipient) ∈ keys ++ [(messageId, recipient)])
      Delivery.pulled rows := by
  simp only [updateWhere, List.map_map]
  apply List.map_congr_left
  intro d _
  have named : ∀ row : Delivery, row.is messageId recipient = true ↔
      (row.envelopeId, row.recipient) = (messageId, recipient) := by
    intro row
    rw [delivery_is_iff, Prod.mk.injEq]
  by_cases before : (d.envelopeId, d.recipient) ∈ keys
  · simp only [Function.comp_apply, before, decide_true, if_true, List.mem_append, true_or]
    split <;> rfl
  · have still : (if decide ((d.envelopeId, d.recipient) ∈ keys) = true then d.pulled else d) = d :=
      if_neg (by simpa using before)
    simp only [Function.comp_apply, still]
    by_cases here : (d.envelopeId, d.recipient) = (messageId, recipient)
    · rw [if_pos ((named d).mpr here), if_pos (by simp [here])]
    · rw [if_neg (mt (named d).mp here), if_neg (by simp only [List.mem_append, List.mem_singleton,
        before, here, or_self, decide_false, Bool.false_eq_true, not_false_eq_true])]

theorem mark_meets (env : Envelope) :
    Meets (fun _ _ => True) (fun w : World => w.store = st.afterPull recipient messages)
      (moveDeliveries .pulled (·.is env.messageId recipient) Delivery.pulled)
      (fun _ w => w.store = st.afterPull recipient (messages ++ [env])) := by
  apply moveDeliveries_meets
  · exact fun _ _ _ => trivial
  · exact fun w w' quiet same => quiet.store.trans same
  · exact fun _ _ => trivial
  · intro w same
    have rows : (st.afterPull recipient messages).deliveries = w.store.deliveries := by rw [same]
    have keys : (messages ++ [env]).map (fun env => (env.messageId, recipient)) =
        messages.map (fun env => (env.messageId, recipient)) ++ [(env.messageId, recipient)] :=
      List.map_append
    simp only [Store.afterPull, keys, ← mark_concat]
    simp only [moveRows, same]
    rfl

theorem markEach_meets (rest : List Envelope) :
    Meets (fun _ _ => True) (fun w : World => w.store = st.afterPull recipient messages)
      (rest.forM fun env =>
        moveDeliveries .pulled (·.is env.messageId recipient) Delivery.pulled)
      (fun _ w => w.store = st.afterPull recipient (messages ++ rest)) := by
  induction rest generalizing messages with
  | nil => exact Meets.pure fun w same => by rwa [List.append_nil]
  | cons env rest ih =>
    have more := @ih (messages ++ [env])
    rw [List.append_assoc] at more
    exact (mark_meets env).bind fun _ => more

/-- A pull that answers has taken the first page, and marked it. -/
theorem inbox_takes (st : Store) (recipient : String) (limit : Nat) :
    Meets (fun _ _ => True) (fun w : World => w.store = st) (inbox recipient limit) (fun a w =>
      a = (st.page recipient limit, decide ((st.inboxOrder recipient).length > limit)) ∧
      w.store = st.afterPull recipient (st.page recipient limit)) := by
  have unread : Unread fun w : World => w.store = st :=
    fun w w' quiet same => quiet.store.trans same
  refine (query_meets (fun _ _ _ => trivial) unread).bind fun rows => ?_
  refine Meets.given fun w ⟨same, found⟩ => ⟨fun w => w.store = st, same, ?_⟩
  have more : rows.length > limit ↔ (st.inboxOrder recipient).length > limit := by
    rw [found, same, List.length_take]
    omega
  have chosen : rows.take limit = st.page recipient limit := by
    rw [found, same, List.take_take, Nat.min_eq_left (Nat.le_succ limit)]
    rfl
  have none : st.afterPull recipient [] = st := by
    simp [Store.afterPull, updateWhere]
  simp only [chosen, more]
  have noted : ∀ (now : Store) (passage : World → Passage), Meets (fun _ _ => True)
      (fun w : World => w.store = now) (note passage) (fun _ w => w.store = now) :=
    fun now passage => Meets.step (fun _ _ => trivial) fun _ same => same
  have marked := @markEach_meets st recipient [] (st.page recipient limit)
  rw [none, List.nil_append] at marked
  refine (noted _ _).bind fun _ => marked.bind fun _ => (noted _ _).bind fun _ => ?_
  exact Meets.pure fun w same => ⟨rfl, same⟩

theorem pullsPage_iff {more : Bool} {st' : Store}
    (pulls : PullsPage recipient limit st st' messages more) :
    messages = st.page recipient limit ∧ more = decide ((st.inboxOrder recipient).length > limit) ∧
      st' = st.afterPull recipient messages := by
  obtain ⟨w, w', rfl, rfl, ran⟩ := pulls
  have met := (inbox_takes w.store recipient limit w rfl).2
  rw [ran] at met
  obtain ⟨answer, store⟩ := met _ rfl
  obtain ⟨rfl, rfl⟩ := Prod.mk.inj answer
  exact ⟨rfl, rfl, store⟩

end Marking

section Law
variable {st st' : Store} {recipient : String} {limit : Nat} {messages : List Envelope} {more : Bool}

/-- What is on the page is no longer pending, and nothing else changes. -/
theorem awaited_afterPull : (st.afterPull recipient messages).awaited recipient =
    (st.awaited recipient).filter fun id => id ∉ pageIds messages := by
  simp only [Store.afterPull, Store.awaited, updateWhere]
  induction st.deliveries with
  | nil => rfl
  | cons d rest ih =>
    have listed : (d.envelopeId, d.recipient) ∈ messages.map (fun env => (env.messageId, recipient)) ↔
        d.envelopeId ∈ pageIds messages ∧ d.recipient = recipient := by
      simp only [List.mem_map, Prod.mk.injEq, pageIds]
      constructor
      · rintro ⟨env, inside, id, address⟩
        exact ⟨⟨env, inside, id⟩, address.symm⟩
      · rintro ⟨⟨env, inside, id⟩, address⟩
        exact ⟨env, inside, id, address.symm⟩
    by_cases hit : (d.envelopeId, d.recipient) ∈ messages.map fun env => (env.messageId, recipient)
    · obtain ⟨inside, address⟩ := listed.mp hit
      have gone : d.pulled.pending = false := rfl
      rw [List.map_cons, if_pos (by simpa using hit), List.filter_cons_of_neg (by simp [gone]), ih]
      by_cases waiting : d.pending = true
      · rw [List.filter_cons_of_pos (by simp [address, waiting]), List.map_cons,
          List.filter_cons_of_neg (by simp [inside])]
      · rw [List.filter_cons_of_neg (by simp [waiting])]
    · rw [List.map_cons, if_neg (by simpa using hit)]
      by_cases mine : (d.recipient = recipient && d.pending) = true
      · have outside : d.envelopeId ∉ pageIds messages := by
          simp only [Bool.and_eq_true, decide_eq_true_eq] at mine
          exact fun inside => hit (listed.mpr ⟨inside, mine.1⟩)
        have keeps : ∀ rows : List Delivery,
            (d :: rows).filter (fun d => d.recipient = recipient && d.pending) =
              d :: rows.filter (fun d => d.recipient = recipient && d.pending) :=
          fun _ => List.filter_cons_of_pos mine
        rw [keeps, keeps, List.map_cons, List.map_cons,
          List.filter_cons_of_pos (by simpa using outside), ih]
      · have drops : ∀ rows : List Delivery,
            (d :: rows).filter (fun d => d.recipient = recipient && d.pending) =
              rows.filter (fun d => d.recipient = recipient && d.pending) :=
          fun _ => List.filter_cons_of_neg mine
        rw [drops, drops, ih]

/-- The page and what is pending afterwards are together what was pending before. -/
theorem page_perm (recipient : String) (limit : Nat) (filed : st.Filed) :
    (pageIds (st.page recipient limit) ++
      (st.afterPull recipient (st.page recipient limit)).awaited recipient).Perm
      (st.awaited recipient) := by
  have all : (pageIds (st.inboxOrder recipient)).Perm (st.awaited recipient) := inboxOrder_perm filed
  have part : (pageIds (st.page recipient limit)).Sublist (pageIds (st.inboxOrder recipient)) :=
    (List.take_sublist limit _).map _
  rw [awaited_afterPull, List.perm_ext_iff_of_nodup]
  · intro id
    rw [List.mem_append, List.mem_filter, decide_eq_true_eq]
    constructor
    · rintro (taken | ⟨waiting, _⟩)
      · exact all.subset (part.subset taken)
      · exact waiting
    · intro waiting
      by_cases taken : id ∈ pageIds (st.page recipient limit)
      · exact .inl taken
      · exact .inr ⟨waiting, taken⟩
  · refine List.nodup_append.mpr ⟨(pageIds_once filed).sublist part, ?_, ?_⟩
    · exact (all.nodup_iff.mp (pageIds_once filed)).filter _
    · rintro id taken _ left rfl
      simp [taken] at left
  · exact all.nodup_iff.mp (pageIds_once filed)

theorem page_length (recipient : String) (limit : Nat) (filed : st.Filed) :
    (pageIds (st.page recipient limit)).length = min limit (st.awaited recipient).length := by
  rw [← (inboxOrder_perm filed).length_eq, pageIds, pageIds, List.length_map, List.length_map,
    Store.page, List.length_take]

theorem Store.Filed.afterPull (filed : st.Filed) : (st.afterPull recipient messages).Filed := by
  constructor
  · intro d stored
    obtain ⟨old, before, rfl⟩ := mem_updateWhere.mp stored
    have known := filed.known old before
    split <;> exact known
  · show ((updateWhere _ Delivery.pulled st.deliveries).map
      fun d => (d.envelopeId, d.recipient)).Nodup
    have keys : ∀ p : Delivery → Bool, (updateWhere p Delivery.pulled st.deliveries).map
        (fun d => (d.envelopeId, d.recipient)) =
        st.deliveries.map fun d => (d.envelopeId, d.recipient) := fun p =>
      map_updateWhere fun _ _ _ => rfl
    rw [keys]
    exact filed.once

theorem pageLaw_of_pull (filed : st.Filed) (pulls : PullsPage recipient limit st st' messages more) :
    PageLaw recipient limit st st' messages more := by
  obtain ⟨rfl, rfl, rfl⟩ := pullsPage_iff pulls
  have perm := page_perm recipient limit filed
  have size := page_length recipient limit filed
  have sorted := inboxOrder_sorted st recipient
  constructor
  · exact List.length_take_le _ _
  · exact sorted.sublist (List.take_sublist limit _)
  · intro env taken
    obtain ⟨d, stored, address, waiting, found⟩ := mem_inboxOrder.mp (List.mem_of_mem_take taken)
    have same := (envelope_found found).2
    rw [same]
    exact ⟨mem_awaited.mpr ⟨d, stored, rfl, address, waiting⟩, found⟩
  · intro id waits env found taken onPage smaller
    obtain ⟨d, stored, rfl, address, waiting⟩ := mem_awaited.mp waits
    exact @mem_take_of_sorted _ Envelope.seq _ _ _ _ sorted onPage
      (mem_inboxOrder.mpr ⟨d, stored, address, waiting, found⟩) smaller
  · have rows : ∀ d : Delivery, (d.envelopeId, d.recipient) ∈ (st.page recipient limit).map
        (fun env => (env.messageId, recipient)) ↔
        d.recipient = recipient ∧ d.envelopeId ∈ pageIds (st.page recipient limit) := by
      intro d
      simp only [List.mem_map, Prod.mk.injEq, pageIds]
      constructor
      · rintro ⟨env, inside, id, address⟩
        exact ⟨address.symm, env, inside, id⟩
      · rintro ⟨address, env, inside, id⟩
        exact ⟨env, inside, id, address.symm⟩
    simp only [Store.afterPull, updateWhere, rows, decide_eq_true_eq]
    rfl
  · have total := perm.length_eq
    rw [List.length_append, size] at total
    have listed : (st.inboxOrder recipient).length = (st.awaited recipient).length := by
      rw [← (inboxOrder_perm filed).length_eq, pageIds, List.length_map]
    rw [decide_eq_true_eq, ← List.length_pos_iff, listed]
    omega

/-- Pulls one after another take what was pending apart, page by page. -/
theorem pages_perm {pages : List (List Envelope)} (filed : st.Filed)
    (pulls : PullsPages recipient limit st st' pages) :
    (pages.flatMap pageIds ++ st'.awaited recipient).Perm (st.awaited recipient) ∧
      (st'.awaited recipient).length = (st.awaited recipient).length - limit * pages.length := by
  induction pulls with
  | none st => exact ⟨List.Perm.refl _, rfl⟩
  | @next st st' messages more st'' pages first rest ih =>
    obtain ⟨rfl, rfl, rfl⟩ := pullsPage_iff first
    obtain ⟨perm, left⟩ := ih filed.afterPull
    have here := page_perm recipient limit filed
    have size := page_length recipient limit filed
    constructor
    · rw [List.flatMap_cons, List.append_assoc]
      exact (perm.append_left _).trans here
    · have total := here.length_eq
      rw [List.length_append, size] at total
      rw [left, List.length_cons, Nat.mul_succ]
      omega

end Law

/-- A pull returns the first pending messages in order, marks their rows and no others, and
says whether more are pending. Pulls that follow one another return every pending message
once, all of them when there are enough pulls. -/
theorem inbox_pull_law {st : Store} (filed : st.Filed) (recipient : String) (limit : Nat) :
    (∀ st' messages more, PullsPage recipient limit st st' messages more →
      PageLaw recipient limit st st' messages more) ∧
    (∀ w : World, w.store = st → Unfailing w → ∃ messages more,
      ((inbox recipient limit).exec w).1 = .ok (messages, more)) ∧
    ∀ st' pages, PullsPages recipient limit st st' pages →
      (pages.flatMap pageIds).Nodup ∧ (pages.flatMap pageIds).Subperm (st.awaited recipient) ∧
      (0 < limit → (st.awaited recipient).length ≤ pages.length →
        (pages.flatMap pageIds).Perm (st.awaited recipient)) := by
  refine ⟨fun _ _ _ pulls => pageLaw_of_pull filed pulls, fun w same works => ?_,
    fun st' pages pulls => ?_⟩
  · obtain ⟨⟨messages, more⟩, _, ran, _⟩ := inbox_succeeds recipient limit w ⟨same, works⟩
    exact ⟨messages, more, by rw [ran]⟩
  · obtain ⟨perm, left⟩ := pages_perm filed pulls
    have once : (st.awaited recipient).Nodup :=
      (inboxOrder_perm filed).nodup_iff.mp (pageIds_once filed)
    refine ⟨(perm.nodup_iff.mpr once).sublist (List.sublist_append_left _ _),
      (List.sublist_append_left _ _).subperm.trans perm.subperm, fun positive enough => ?_⟩
    have many : (st.awaited recipient).length ≤ limit * pages.length :=
      Nat.le_trans enough (Nat.le_mul_of_pos_left _ positive)
    have empty : st'.awaited recipient = [] := List.eq_nil_of_length_eq_zero (by omega)
    rwa [empty, List.append_nil] at perm

section Sample

theorem inbox_pull_law_sent : ∃ st : Store,
    st.awaited "reviewer" = ["0197d8a0-0000-7000-8000-000000000000"] ∧
    (∀ st' messages more, PullsPage "reviewer" 1 st st' messages more →
      PageLaw "reviewer" 1 st st' messages more) ∧
    ∀ st' pages, PullsPages "reviewer" 1 st st' pages → 1 ≤ pages.length →
      (pages.flatMap pageIds).Perm ["0197d8a0-0000-7000-8000-000000000000"] := by
  let _ := Platform.sample
  have ran : (sampleService.runs (System.dormant blankWorld) (startWith sampleStart ::
      sending 0 "coder" "reviewer" "k1" 1783242000)).map (fun c => decide
        (c.shared.store.awaited "reviewer" = ["0197d8a0-0000-7000-8000-000000000000"])) =
          some true := by
    decide +kernel
  obtain ⟨c, run, facts⟩ := Option.map_eq_some_iff.mp ran
  have path : sampleService.Reaches blankWorld c := System.leads_of_runs _ run
  have waits := of_decide_eq_true facts
  obtain ⟨law, _, all⟩ :=
    inbox_pull_law (good_reachable blankWorld_blank path).filed "reviewer" 1
  refine ⟨c.shared.store, waits, law, fun st' pages pulls enough => ?_⟩
  have perm := (all st' pages pulls).2.2 Nat.one_pos (by rw [waits]; exact enough)
  rwa [waits] at perm

end Sample
end Crewd.Bus
