import Crewd.Tickets
import Crewd.Lib.Acyclic
import Mathlib.Data.Finset.Card
import Mathlib.Data.List.Perm.Basic

/-! The wait-for graph never holds a cycle. The cycle search is complete for
graphs of any size, and each edge counts the guards that are out for it, whatever
the order in which awaits begin and end and in which the map yields its edges. -/
namespace Crewd.WaitForGraph
open Cycles Relation

abbrev Edges := List ((String × String) × Nat)

/-- An edge the search follows. -/
def Active (edges : Edges) (a b : String) : Prop := ∃ count, ((a, b), count) ∈ edges ∧ count ≠ 0

theorem active_cons {a b a' b' : String} {count : Nat} {rest : Edges} :
    Active (((a, b), count) :: rest) a' b' ↔
      (a' = a ∧ b' = b ∧ count ≠ 0) ∨ Active rest a' b' := by
  constructor
  · rintro ⟨known, member, positive⟩
    rcases List.mem_cons.mp member with same | later
    · cases same
      exact .inl ⟨rfl, rfl, positive⟩
    · exact .inr ⟨known, later, positive⟩
  · rintro (⟨rfl, rfl, positive⟩ | ⟨known, later, positive⟩)
    · exact ⟨count, List.mem_cons_self, positive⟩
    · exact ⟨known, List.mem_cons_of_mem _ later, positive⟩

section Search

variable {goal node : String}

theorem scan_found : ∀ (edges : Edges) (state : Search),
    (scan goal node edges state).2 = true ↔ Active edges node goal := by
  intro edges
  induction edges with
  | nil => intro state; simp [scan, Active]
  | cons edge rest ih =>
    intro state
    obtain ⟨⟨a, b⟩, count⟩ := edge
    rw [active_cons, scan]
    split_ifs with skipped ends seen
    · rw [ih]
      constructor
      · exact .inr
      · rintro (⟨same, -, positive⟩ | later)
        · rcases skipped with zero | other
          · exact absurd zero positive
          · exact absurd same.symm other
        · exact later
    · rw [not_or, not_not] at skipped
      simp [skipped.1, skipped.2, ends]
    · rw [ih]
      simp [Ne.symm ends]
    · rw [ih]
      simp [Ne.symm ends]

/-- What a node adds: ends not seen before, each once and with the node as parent. -/
theorem scan_fresh (goal node : String) : ∀ (edges : Edges) (state : Search),
    ∃ fresh, (scan goal node edges state).1.queue = state.queue ++ fresh ∧
      (scan goal node edges state).1.parent =
        fresh.reverse.map (fun x => (x, node)) ++ state.parent ∧
      (∀ x, x ∈ (scan goal node edges state).1.visited ↔ x ∈ fresh ∨ x ∈ state.visited) ∧
      fresh.Nodup ∧ ∀ x ∈ fresh, x ∉ state.visited ∧ Active edges node x := by
  intro edges
  induction edges with
  | nil => intro state; exact ⟨[], by simp [scan]⟩
  | cons edge rest ih =>
    intro state
    obtain ⟨⟨a, b⟩, count⟩ := edge
    rw [scan]
    split_ifs with skipped ends seen
    · obtain ⟨fresh, queue, parent, visited, nodup, new⟩ := ih state
      refine ⟨fresh, queue, parent, visited, nodup, ?_⟩
      intro x member
      exact ⟨(new x member).1, active_cons.mpr (.inr (new x member).2)⟩
    · exact ⟨[], by simp⟩
    · obtain ⟨fresh, queue, parent, visited, nodup, new⟩ := ih state
      refine ⟨fresh, queue, parent, visited, nodup, ?_⟩
      intro x member
      exact ⟨(new x member).1, active_cons.mpr (.inr (new x member).2)⟩
    · rw [not_or, not_not] at skipped
      obtain ⟨fresh, queue, parent, visited, nodup, new⟩ :=
        ih ⟨state.queue ++ [b], b :: state.visited, (b, node) :: state.parent⟩
      have apart : b ∉ fresh := fun member => (new b member).1 List.mem_cons_self
      refine ⟨b :: fresh, ?_, ?_, ?_, List.nodup_cons.mpr ⟨apart, nodup⟩, ?_⟩
      · rw [queue, List.append_assoc, List.singleton_append]
      · rw [parent]
        simp
      · intro x
        rw [visited x, List.mem_cons, List.mem_cons]
        tauto
      · intro x member
        rcases List.mem_cons.mp member with rfl | later
        · exact ⟨seen, active_cons.mpr (.inl ⟨skipped.2.symm, rfl, skipped.1⟩)⟩
        · exact ⟨fun old => (new x later).1 (List.mem_cons_of_mem _ old),
            active_cons.mpr (.inr (new x later).2)⟩

theorem scan_keeps {edges : Edges} {state : Search} {x : String} (seen : x ∈ state.visited) :
    x ∈ (scan goal node edges state).1.visited := by
  obtain ⟨_, -, -, visited, -⟩ := scan_fresh goal node edges state
  exact (visited x).mpr (.inr seen)

/-- When none of its edges ends in the goal, every end of the node is seen. -/
theorem scan_covers : ∀ (edges : Edges) (state : Search), ¬ Active edges node goal →
    ∀ x, Active edges node x → x ∈ (scan goal node edges state).1.visited := by
  intro edges
  induction edges with
  | nil => intro state _ x ⟨_, member, _⟩; simp at member
  | cons edge rest ih =>
    intro state off x active
    obtain ⟨⟨a, b⟩, count⟩ := edge
    rw [active_cons, not_or] at off
    rw [active_cons] at active
    rw [scan]
    split_ifs with skipped ends seen
    · rcases active with ⟨same, -, positive⟩ | later
      · rcases skipped with zero | other
        · exact absurd zero positive
        · exact absurd same.symm other
      · exact ih state off.2 x later
    · rw [not_or, not_not] at skipped
      exact absurd ⟨skipped.2.symm, ends.symm, skipped.1⟩ off.1
    · rcases active with ⟨-, rfl, -⟩ | later
      · exact scan_keeps seen
      · exact ih state off.2 x later
    · rcases active with ⟨-, rfl, -⟩ | later
      · exact scan_keeps List.mem_cons_self
      · exact ih _ off.2 x later

theorem scan_onward (edges : Edges) (state : Search) (off : ¬ Active edges node goal) :
    ∃ fresh, (scan goal node edges state).1.queue = state.queue ++ fresh ∧
      (∀ x, x ∈ (scan goal node edges state).1.visited ↔ x ∈ fresh ∨ x ∈ state.visited) ∧
      fresh.Nodup ∧ (∀ x ∈ fresh, x ∉ state.visited ∧ Active edges node x) ∧
      ∀ x, Active edges node x → x ∈ (scan goal node edges state).1.visited := by
  obtain ⟨fresh, queue, -, visited, nodup, new⟩ := scan_fresh goal node edges state
  exact ⟨fresh, queue, visited, nodup, new, scan_covers edges state off⟩

/-- Ends of edges that the search has not seen. -/
def unseen (edges : Edges) (visited : List String) : Finset String :=
  (edges.map fun edge => edge.1.2).toFinset \ visited.toFinset

theorem unseen_le (edges : Edges) (visited : List String) :
    (unseen edges visited).card ≤ edges.length := by
  apply (Finset.card_le_card Finset.sdiff_subset).trans
  simpa using List.toFinset_card_le (edges.map fun edge => edge.1.2)

theorem mem_unseen_of_active {edges : Edges} {visited : List String} {x : String}
    (active : Active edges node x) (new : x ∉ visited) : x ∈ unseen edges visited := by
  obtain ⟨count, member, -⟩ := active
  have ends := List.mem_map_of_mem (f := fun edge : (String × String) × Nat => edge.1.2) member
  simpa [unseen, new] using ends

/-- Each queued node was an unseen end before. -/
theorem unseen_spent {edges : Edges} {before after fresh : List String} (nodup : fresh.Nodup)
    (visited : ∀ x, x ∈ after ↔ x ∈ fresh ∨ x ∈ before)
    (new : ∀ x ∈ fresh, x ∈ unseen edges before) :
    fresh.length + (unseen edges after).card ≤ (unseen edges before).card := by
  have apart : Disjoint fresh.toFinset (unseen edges after) := by
    rw [Finset.disjoint_left]
    intro x member unseenAfter
    simp only [unseen, Finset.mem_sdiff, List.mem_toFinset] at unseenAfter member
    exact unseenAfter.2 ((visited x).mpr (.inl member))
  have within : fresh.toFinset ∪ unseen edges after ⊆ unseen edges before := by
    intro x member
    rcases Finset.mem_union.mp member with queued | later
    · exact new x (List.mem_toFinset.mp queued)
    · simp only [unseen, Finset.mem_sdiff, List.mem_toFinset] at later ⊢
      exact ⟨later.1, fun old => later.2 ((visited x).mpr (.inr old))⟩
  have counted := Finset.card_le_card within
  rwa [Finset.card_union_of_disjoint apart, List.toFinset_card_of_nodup nodup] at counted

/-- A search on its way: it has reached what it has visited, and whatever it has
taken off the queue has all its ends visited and none of them is the goal. -/
structure Searching (edges : Edges) (goal target : String) (state : Search) : Prop where
  started : target ∈ state.visited
  reached : ∀ x ∈ state.visited, ReflTransGen (Active edges) target x
  queued : ∀ x ∈ state.queue, x ∈ state.visited
  expanded : ∀ x ∈ state.visited, x ∉ state.queue → ∀ y, Active edges x y →
    y ∈ state.visited ∧ y ≠ goal

theorem Searching.begin (edges : Edges) (goal target : String) :
    Searching edges goal target ⟨[target], [target], []⟩ where
  started := List.mem_singleton_self target
  reached := by
    intro x member
    rw [List.mem_singleton.mp member]
  queued := fun _ member => member
  expanded := fun _ member off => absurd member off

variable {edges : Edges} {target : String} {state : Search} {queue : List String}

theorem Searching.exhausted (searching : Searching edges goal target state)
    (empty : state.queue = []) : ¬ TransGen (Active edges) target goal := by
  apply no_path_of_closed (p := (· ∈ state.visited)) searching.started
  intro x member
  exact searching.expanded x member (by simp [empty])

theorem Searching.onward (searching : Searching edges goal target state)
    (next : state.queue = node :: queue) (off : ¬ Active edges node goal) :
    Searching edges goal target (scan goal node edges { state with queue := queue }).1 := by
  obtain ⟨fresh, queue', visited, -, new, all⟩ := scan_onward edges { state with queue := queue } off
  have inside : node ∈ state.visited := searching.queued node (by simp [next])
  constructor
  · exact (visited target).mpr (.inr searching.started)
  · intro x member
    rcases (visited x).mp member with queued | old
    · exact (searching.reached node inside).tail (new x queued).2
    · exact searching.reached x old
  · intro x member
    rw [queue'] at member
    rcases List.mem_append.mp member with old | queued
    · exact (visited x).mpr (.inr (searching.queued x (by simp [next, old])))
    · exact (visited x).mpr (.inl queued)
  · intro x member taken y active
    rw [queue', List.mem_append, not_or] at taken
    by_cases same : x = node
    · subst same
      exact ⟨all y active, by rintro rfl; exact off active⟩
    · have old : x ∈ state.visited := ((visited x).mp member).resolve_left taken.2
      obtain ⟨seen, apart⟩ := searching.expanded x old (by simp [next, same, taken.1]) y active
      exact ⟨(visited y).mpr (.inr seen), apart⟩

theorem search_succ {fuel : Nat} (next : state.queue = node :: queue) :
    search goal target edges (fuel + 1) state =
      if (scan goal node edges { state with queue := queue }).2 then
        some ([goal, target] ++ walkBack (scan goal node edges { state with queue := queue }).1.parent
          target (edges.length + 1) node)
      else search goal target edges fuel (scan goal node edges { state with queue := queue }).1 := by
  rw [search, next]
  dsimp only
  split <;> rename_i scanned <;> simp [scanned]

/-- With a round for each node that can still be queued, the search succeeds
exactly when the target leads to the goal. -/
theorem search_complete : ∀ (fuel : Nat) (state : Search), Searching edges goal target state →
    state.queue.length + (unseen edges state.visited).card ≤ fuel →
    ((search goal target edges fuel state).isSome = true ↔
      TransGen (Active edges) target goal) := by
  intro fuel
  induction fuel with
  | zero =>
    intro state searching enough
    have empty : state.queue = [] := List.length_eq_zero_iff.mp (by omega)
    simp [search, searching.exhausted empty]
  | succ fuel ih =>
    intro state searching enough
    cases next : state.queue with
    | nil => simp [search, next, searching.exhausted next]
    | cons node queue =>
      rw [next, List.length_cons] at enough
      by_cases active : Active edges node goal
      · have found := (scan_found edges { state with queue := queue }).mpr active
        have inside : node ∈ state.visited := searching.queued node (by simp [next])
        have path := TransGen.tail' (searching.reached node inside) active
        rw [search_succ next, if_pos found]
        simp [path]
      · have missed : (scan goal node edges { state with queue := queue }).2 = false :=
          Bool.eq_false_iff.mpr (mt (scan_found edges _).mp active)
        obtain ⟨fresh, queue', visited, nodup, new, -⟩ :=
          scan_onward edges { state with queue := queue } active
        have spent := unseen_spent nodup visited fun x member =>
          mem_unseen_of_active (new x member).2 (new x member).1
        rw [search_succ next, missed]
        apply ih _ (searching.onward next active)
        rw [queue', List.length_append]
        simp only at spent ⊢
        omega

end Search

theorem closes_cycle_iff (graph : WaitForGraph) (waiter target : String) :
    (graph.closesCycle waiter target).isSome = true ↔
      waiter = target ∨ TransGen (Active graph.edges) target waiter := by
  unfold closesCycle
  split_ifs with same
  · simp [same]
  · rw [search_complete _ _ (Searching.begin graph.edges waiter target)]
    · simp [same]
    · have bound := unseen_le graph.edges [target]
      simp only [List.length_singleton]
      omega

section Edges

variable {graph : WaitForGraph} {pair known : String × String} {count : Nat} {edges : Edges}

theorem keys_bump (pair : String × String) (edges : Edges) :
    (bump pair edges).map Prod.fst =
      if pair ∈ edges.map Prod.fst then edges.map Prod.fst else edges.map Prod.fst ++ [pair] := by
  induction edges with
  | nil => rfl
  | cons edge rest ih =>
    obtain ⟨known, count⟩ := edge
    by_cases same : known = pair
    · simp [bump, same]
    · simp only [bump, if_neg same, List.map_cons, ih, List.mem_cons, Ne.symm same, false_or]
      split_ifs <;> rfl

theorem nodup_bump (nodup : (edges.map Prod.fst).Nodup) :
    ((bump pair edges).map Prod.fst).Nodup := by
  rw [keys_bump]
  split_ifs with present
  · exact nodup
  · rw [List.nodup_append]
    refine ⟨nodup, List.nodup_singleton pair, ?_⟩
    rintro known member _ single rfl
    exact present (List.mem_singleton.mp single ▸ member)

/-- The pair gains one, or enters with one; every other edge stays. -/
theorem mem_bump (nodup : (edges.map Prod.fst).Nodup) : (known, count) ∈ bump pair edges ↔
    (known ≠ pair ∧ (known, count) ∈ edges) ∨ (known = pair ∧
      ((pair ∉ edges.map Prod.fst ∧ count = 1) ∨ ∃ old, (pair, old) ∈ edges ∧ count = old + 1)) := by
  induction edges with
  | nil => simp [bump]
  | cons edge rest ih =>
    obtain ⟨first, initial⟩ := edge
    rw [List.map_cons, List.nodup_cons] at nodup
    by_cases same : first = pair
    · subst same
      have absent : ∀ c, (first, c) ∉ rest := fun c member =>
        nodup.1 (List.mem_map.mpr ⟨(first, c), member, rfl⟩)
      simp only [bump, if_true, List.mem_cons, Prod.mk.injEq, List.map_cons, true_or, not_true,
        false_and, false_or, absent, or_false, true_and, exists_eq_left]
      constructor
      · rintro (⟨rfl, rfl⟩ | member)
        · exact .inr ⟨rfl, rfl⟩
        · have other : known ≠ first := by rintro rfl; exact absent count member
          exact .inl ⟨other, .inr member⟩
      · rintro (⟨other, ⟨rfl, -⟩ | member⟩ | ⟨rfl, rfl⟩)
        · exact absurd rfl other
        · exact .inr member
        · exact .inl ⟨rfl, rfl⟩
    · simp only [bump, if_neg same, List.mem_cons, ih nodup.2, Prod.mk.injEq, List.map_cons,
        Ne.symm same, false_and, false_or]
      constructor
      · rintro (⟨rfl, rfl⟩ | ⟨other, member⟩ | entry)
        · exact .inl ⟨same, .inl ⟨rfl, rfl⟩⟩
        · exact .inl ⟨other, .inr member⟩
        · exact .inr entry
      · rintro (⟨other, ⟨rfl, rfl⟩ | member⟩ | entry)
        · exact .inl ⟨rfl, rfl⟩
        · exact .inr (.inl ⟨other, member⟩)
        · exact .inr (.inr entry)

theorem keys_release_sublist (graph : WaitForGraph) (guard : AwaitGuard) :
    ((graph.release guard).edges.map Prod.fst).Sublist (graph.edges.map Prod.fst) := by
  have same : (graph.edges.map fun edge =>
      if edge.1 = (guard.waiter, guard.target) then (edge.1, edge.2 - 1) else (edge.1, edge.2)).map
        Prod.fst = graph.edges.map Prod.fst := by
    rw [List.map_map]
    apply List.map_congr_left
    intro edge _
    simp only [Function.comp_apply]
    split_ifs <;> rfl
  rw [← same]
  exact List.filter_sublist.map Prod.fst

/-- The pair loses one, and leaves at zero; every other edge stays. -/
theorem mem_release {guard : AwaitGuard} : (known, count) ∈ (graph.release guard).edges ↔
    (known ≠ (guard.waiter, guard.target) ∧ (known, count) ∈ graph.edges) ∨
      (known = (guard.waiter, guard.target) ∧ count ≠ 0 ∧ (known, count + 1) ∈ graph.edges) := by
  rw [release, List.mem_filter, List.mem_map, decide_eq_true_eq, not_and]
  constructor
  · rintro ⟨⟨⟨key, old⟩, member, entry⟩, kept⟩
    dsimp only at entry
    split_ifs at entry with same
    · cases entry
      have positive := kept same
      obtain ⟨less, rfl⟩ := Nat.exists_eq_add_one_of_ne_zero (by omega : old ≠ 0)
      exact .inr ⟨same, positive, member⟩
    · cases entry
      exact .inl ⟨same, member⟩
  · rintro (⟨other, member⟩ | ⟨rfl, positive, member⟩)
    · exact ⟨⟨(known, count), member, if_neg other⟩, fun same => absurd same other⟩
    · exact ⟨⟨(_, count + 1), member, if_pos rfl⟩, fun _ => positive⟩

end Edges

section Guards

/-- A graph with the guards that are out: granted and not yet released. A refused
await leaves the graph as it was, and the map may yield its edges in any order. -/
inductive Outstanding : WaitForGraph → List AwaitGuard → Prop
  | new : Outstanding .new []
  | granted {graph after : WaitForGraph} {guards : List AwaitGuard} {waiter target : String}
      {guard : AwaitGuard} : Outstanding graph guards →
      graph.tryActivateAwait waiter target = (.ok guard, after) → Outstanding after (guard :: guards)
  | refused {graph after : WaitForGraph} {guards : List AwaitGuard} {waiter target : String}
      {e : BusError} : Outstanding graph guards →
      graph.tryActivateAwait waiter target = (.error e, after) → Outstanding after guards
  | released {graph : WaitForGraph} {guards : List AwaitGuard} {guard : AwaitGuard} :
      Outstanding graph guards → guard ∈ guards →
      Outstanding (graph.release guard) (guards.erase guard)
  | reordered {graph : WaitForGraph} {guards : List AwaitGuard} {edges : Edges} :
      Outstanding graph guards → graph.edges.Perm edges → Outstanding ⟨edges⟩ guards

theorem granted_spec {graph after : WaitForGraph} {waiter target : String} {guard : AwaitGuard}
    (call : graph.tryActivateAwait waiter target = (.ok guard, after)) :
    guard = ⟨waiter, target⟩ ∧ after = ⟨bump (waiter, target) graph.edges⟩ ∧
      ¬ (graph.closesCycle waiter target).isSome := by
  unfold tryActivateAwait at call
  split at call
  · cases call
  · rename_i free
    cases call
    exact ⟨rfl, rfl, by simp [free]⟩

theorem refused_spec {graph after : WaitForGraph} {waiter target : String} {e : BusError}
    (call : graph.tryActivateAwait waiter target = (.error e, after)) :
    after = graph ∧ (graph.closesCycle waiter target).isSome := by
  unfold tryActivateAwait at call
  split at call
  · rename_i cycle closed
    cases call
    exact ⟨rfl, by simp [closed]⟩
  · cases call

theorem granted_of_free {graph : WaitForGraph} {waiter target : String}
    (free : graph.closesCycle waiter target = none) : graph.tryActivateAwait waiter target =
      (.ok ⟨waiter, target⟩, ⟨bump (waiter, target) graph.edges⟩) := by
  rw [tryActivateAwait, free]

theorem refused_iff (graph : WaitForGraph) (waiter target : String) :
    (∃ e, (graph.tryActivateAwait waiter target).1 = .error e) ↔
      (graph.closesCycle waiter target).isSome := by
  unfold tryActivateAwait
  split <;> rename_i found <;> simp [found]

/-- The edges are the guards that are out, counted, and they close no cycle. -/
structure Accounts (graph : WaitForGraph) (guards : List AwaitGuard) : Prop where
  nodup : (graph.edges.map Prod.fst).Nodup
  counted : ∀ waiter target count, ((waiter, target), count) ∈ graph.edges ↔
    count ≠ 0 ∧ guards.count ⟨waiter, target⟩ = count
  acyclic : Acyclic (Active graph.edges)

variable {graph : WaitForGraph} {guards : List AwaitGuard} {guard : AwaitGuard} {edges : Edges}

theorem Accounts.active_iff (accounts : Accounts graph guards) (a b : String) :
    Active graph.edges a b ↔ ⟨a, b⟩ ∈ guards := by
  rw [← List.count_pos_iff]
  constructor
  · rintro ⟨count, member, positive⟩
    have exact' := ((accounts.counted a b count).mp member).2
    omega
  · intro positive
    have some := Nat.pos_iff_ne_zero.mp positive
    exact ⟨_, (accounts.counted a b _).mpr ⟨some, rfl⟩, some⟩

theorem Accounts.mem_keys_iff (accounts : Accounts graph guards) (a b : String) :
    (a, b) ∈ graph.edges.map Prod.fst ↔ ⟨a, b⟩ ∈ guards := by
  rw [← accounts.active_iff, List.mem_map]
  constructor
  · rintro ⟨⟨key, count⟩, member, rfl⟩
    exact ⟨count, member, ((accounts.counted a b count).mp member).1⟩
  · rintro ⟨count, member, -⟩
    exact ⟨((a, b), count), member, rfl⟩

theorem Accounts.new : Accounts .new [] where
  nodup := List.nodup_nil
  counted := by simp [WaitForGraph.new, eq_comm]
  acyclic := acyclic_of_none fun _ _ => by simp [WaitForGraph.new, Active]

theorem Accounts.granted {waiter target : String} (accounts : Accounts graph guards)
    (free : ¬ (graph.closesCycle waiter target).isSome) :
    Accounts ⟨bump (waiter, target) graph.edges⟩ (⟨waiter, target⟩ :: guards) := by
  have counted : ∀ a b count, ((a, b), count) ∈ bump (waiter, target) graph.edges ↔
      count ≠ 0 ∧ (AwaitGuard.mk waiter target :: guards).count ⟨a, b⟩ = count := by
    intro a b count
    rw [mem_bump accounts.nodup, accounts.mem_keys_iff, List.count_cons]
    by_cases same : (a, b) = (waiter, target)
    · cases same
      simp only [accounts.counted, ← List.count_pos_iff, ne_eq, not_true, false_and, false_or,
        true_and, beq_self_eq_true, if_true]
      constructor
      · rintro (⟨none, rfl⟩ | ⟨old, ⟨positive, rfl⟩, rfl⟩) <;> omega
      · rintro ⟨positive, rfl⟩
        by_cases none : guards.count ⟨waiter, target⟩ = 0
        · exact .inl ⟨by omega, by omega⟩
        · exact .inr ⟨_, ⟨none, rfl⟩, rfl⟩
    · have other : ¬ (waiter = a ∧ target = b) := by rintro ⟨rfl, rfl⟩; exact same rfl
      simp [accounts.counted, same, other]
  refine ⟨nodup_bump accounts.nodup, counted, ?_⟩
  rw [closes_cycle_iff, not_or] at free
  have apart : ¬ ReflTransGen (Active graph.edges) target waiter := by
    rw [reflTransGen_iff_eq_or_transGen]
    rintro (same | path)
    · exact free.1 same
    · exact free.2 path
  apply (accounts.acyclic.insert apart).mono
  rintro a b ⟨count, member, positive⟩
  rcases (mem_bump accounts.nodup).mp member with ⟨-, old⟩ | ⟨same, -⟩
  · exact .inl ⟨count, old, positive⟩
  · cases same
    exact .inr ⟨rfl, rfl⟩

theorem Accounts.released (accounts : Accounts graph guards) (out : guard ∈ guards) :
    Accounts (graph.release guard) (guards.erase guard) where
  nodup := accounts.nodup.sublist (keys_release_sublist graph guard)
  counted := by
    intro a b count
    rw [mem_release, List.count_erase, accounts.counted, accounts.counted]
    by_cases same : (a, b) = (guard.waiter, guard.target)
    · cases same
      have positive := List.count_pos_iff.mpr out
      simp only [ne_eq, not_true, false_and, false_or, true_and, beq_self_eq_true, if_true]
      omega
    · have other : guard ≠ ⟨a, b⟩ := by rintro rfl; exact same rfl
      simp [same, other]
  acyclic := by
    apply accounts.acyclic.mono
    rintro a b ⟨count, member, positive⟩
    rcases mem_release.mp member with ⟨-, old⟩ | ⟨-, -, old⟩
    · exact ⟨count, old, positive⟩
    · exact ⟨count + 1, old, by omega⟩

theorem Accounts.reordered (accounts : Accounts graph guards) (perm : graph.edges.Perm edges) :
    Accounts ⟨edges⟩ guards where
  nodup := (perm.map Prod.fst).nodup_iff.mp accounts.nodup
  counted := by
    intro a b count
    rw [← accounts.counted, perm.mem_iff]
  acyclic := by
    apply accounts.acyclic.mono
    rintro a b ⟨count, member, positive⟩
    exact ⟨count, perm.mem_iff.mpr member, positive⟩

theorem Outstanding.accounts (out : Outstanding graph guards) : Accounts graph guards := by
  induction out with
  | new => exact Accounts.new
  | granted _ call ih =>
    obtain ⟨rfl, rfl, free⟩ := granted_spec call
    exact ih.granted free
  | refused _ call ih =>
    obtain ⟨rfl, -⟩ := refused_spec call
    exact ih
  | released _ member ih => exact ih.released member
  | reordered _ perm ih => exact ih.reordered perm

/-- Whatever awaits began and ended, the active edges close no cycle, each edge
counts its outstanding guards, and an await is refused exactly when its edge
would close a cycle. -/
theorem wait_for_graph_acyclic (out : Outstanding graph guards) :
    (∀ cell, ¬ TransGen (Active graph.edges) cell cell) ∧
    (∀ waiter target count, ((waiter, target), count) ∈ graph.edges ↔
      count ≠ 0 ∧ guards.count ⟨waiter, target⟩ = count) ∧
    ∀ waiter target, (∃ e, (graph.tryActivateAwait waiter target).1 = .error e) ↔
      waiter = target ∨ TransGen (Active graph.edges) target waiter := by
  have accounts := out.accounts
  refine ⟨accounts.acyclic, accounts.counted, ?_⟩
  intro waiter target
  rw [refused_iff, closes_cycle_iff]

theorem third_await_refused :
    Outstanding ⟨[(("a", "b"), 1), (("b", "c"), 1)]⟩ [⟨"b", "c"⟩, ⟨"a", "b"⟩] ∧
      ∃ e, (WaitForGraph.tryActivateAwait ⟨[(("a", "b"), 1), (("b", "c"), 1)]⟩ "c" "a").1 =
        .error e := by
  have first : Outstanding ⟨[(("a", "b"), 1)]⟩ [⟨"a", "b"⟩] :=
    Outstanding.new.granted (granted_of_free (by decide))
  have second : Outstanding ⟨[(("a", "b"), 1), (("b", "c"), 1)]⟩ [⟨"b", "c"⟩, ⟨"a", "b"⟩] :=
    first.granted (granted_of_free (by decide))
  have toB : Active [(("a", "b"), 1), (("b", "c"), 1)] "a" "b" := ⟨1, by decide, by decide⟩
  have toC : Active [(("a", "b"), 1), (("b", "c"), 1)] "b" "c" := ⟨1, by decide, by decide⟩
  have path := (TransGen.single toB).tail toC
  exact ⟨second, ((wait_for_graph_acyclic second).2.2 "c" "a").mpr (.inr path)⟩

end Guards

end Crewd.WaitForGraph
