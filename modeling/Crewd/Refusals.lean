import Crewd.Deadlock
import Mathlib.Data.List.Rotate

/-! The list of nodes that a refused await names. The walk that rebuilds it always
comes back to the target, but it lists the nodes between target and waiter from the
last to the first, so that the list is a cycle in order only when there is at most
one of them. -/
namespace Crewd.WaitForGraph
open Cycles Relation

/-- The walk of `walkBack`, without a result where the program would stop at a missing
parent or where the fuel does not suffice. -/
def walkBackChecked (parent : List (String × String)) (target : String) :
    Nat → String → Option (List String)
  | 0, _ => none
  | fuel + 1, cur =>
    if cur = target then some []
    else do
      let up ← parent.lookup cur
      let path ← walkBackChecked parent target fuel up
      pure (cur :: path)

/-- The search with the checked walk, and without a result when the fuel ends it. -/
def searchChecked (waiter target : String) (edges : Edges) :
    Nat → Search → Option (Option (List String))
  | 0, _ => none
  | fuel + 1, state =>
    match state.queue with
    | [] => some none
    | node :: queue =>
      match scan waiter node edges { state with queue := queue } with
      | (found, true) => do
        let path ← walkBackChecked found.parent target (edges.length + 1) node
        pure (some ([waiter, target] ++ path))
      | (onward, false) => searchChecked waiter target edges fuel onward

def closesCycleChecked (graph : WaitForGraph) (waiter target : String) :
    Option (Option (List String)) :=
  if waiter = target then some (some [waiter])
  else searchChecked waiter target graph.edges (graph.edges.length + 2) ⟨[target], [target], []⟩

/-- Every node leads to the next of the list, and the last to the first, over the new
edge or an active one. -/
def Genuine (edges : Edges) (waiter target : String) (cycle : List String) : Prop :=
  ∀ pair ∈ cycle.zip (cycle.rotate 1), pair = (waiter, target) ∨ Active edges pair.1 pair.2

/-- The target leads back to the waiter over at most one other node. -/
def Near (edges : Edges) (waiter target : String) : Prop :=
  waiter = target ∨ Active edges target waiter ∨
    ∃ between, Active edges target between ∧ Active edges between waiter

/-- A walk over parents back to the target, each of them the beginning of an active edge. -/
inductive Trail (edges : Edges) (parent : List (String × String)) (target : String) :
    String → List String → Prop
  | done : Trail edges parent target target []
  | up {cur up : String} {path : List String} : cur ≠ target → parent.lookup cur = some up →
      Active edges up cur → Trail edges parent target up path →
      Trail edges parent target cur (cur :: path)

section Walk

variable {edges : Edges} {parent : List (String × String)} {target node : String}
  {path fresh : List String} {fuel : Nat}

theorem walkBack_of_trail (trail : Trail edges parent target node path)
    (enough : path.length < fuel) : walkBack parent target fuel node = path ∧
      walkBackChecked parent target fuel node = some path := by
  induction trail generalizing fuel with
  | done =>
    obtain ⟨fuel, rfl⟩ := Nat.exists_eq_add_one_of_ne_zero (by omega : fuel ≠ 0)
    simp [walkBack, walkBackChecked]
  | up other known active trail ih =>
    obtain ⟨fuel, rfl⟩ := Nat.exists_eq_add_one_of_ne_zero (by omega : fuel ≠ 0)
    rw [List.length_cons] at enough
    obtain ⟨walked, checked⟩ := ih (by omega : _ < fuel)
    simp [walkBack, walkBackChecked, other, known, walked, checked]

theorem lookup_map_const (up x : String) (keys : List String) :
    (keys.map fun key => (key, up)).lookup x = if x ∈ keys then some up else none := by
  induction keys with
  | nil => rfl
  | cons key keys ih =>
    rw [List.map_cons, List.lookup_cons, ih]
    by_cases same : x = key
    · simp [same]
    · simp [same, beq_eq_false_iff_ne.mpr same]

theorem mem_keys_of_lookup {x up : String} (known : parent.lookup x = some up) :
    x ∈ parent.map Prod.fst := by
  obtain ⟨l₁, l₂, rfl, -⟩ := List.lookup_eq_some_iff.mp known
  simp

/-- New nodes do not hide the parent of a known one. -/
theorem lookup_extend {x : String} (known : x ∈ parent.map Prod.fst)
    (apart : ∀ y ∈ fresh, y ∉ parent.map Prod.fst) :
    (fresh.reverse.map (fun y => (y, node)) ++ parent).lookup x = parent.lookup x := by
  have old : x ∉ fresh.reverse := fun member => apart x (List.mem_reverse.mp member) known
  rw [List.lookup_append, lookup_map_const, if_neg old, Option.none_or]

theorem Trail.extend {x : String} (trail : Trail edges parent target x path)
    (apart : ∀ y ∈ fresh, y ∉ parent.map Prod.fst) :
    Trail edges (fresh.reverse.map (fun y => (y, node)) ++ parent) target x path := by
  induction trail with
  | done => exact .done
  | up other known active _ ih =>
    apply Trail.up other _ active ih
    rw [lookup_extend (mem_keys_of_lookup known) apart, known]

theorem Trail.short (trail : Trail edges parent target node path)
    (known : parent.lookup node = some target) : path.length ≤ 1 := by
  cases trail with
  | done => exact Nat.zero_le 1
  | up other up active trail =>
    obtain rfl := Option.some.inj (up.symm.trans known)
    cases trail with
    | done => exact Nat.le_refl 1
    | up beyond => exact absurd rfl beyond

/-- Without cycles, a walk of two nodes or more names them in an order that no edges
have. -/
theorem genuine_iff_short {waiter : String} (acyclic : Acyclic (Active edges))
    (trail : Trail edges parent target node path) (closing : Active edges node waiter) :
    Genuine edges waiter target ([waiter, target] ++ path) ↔ path.length ≤ 1 := by
  cases trail with
  | done => simp [Genuine, closing]
  | @up _ above _ _ _ first trail =>
    cases trail with
    | done => simp [Genuine, closing, first]
    | up beyond =>
      simp only [List.length_cons, Nat.reduceLeDiff, iff_false]
      intro genuine
      rcases genuine (node, above) (by simp) with new | turned
      · exact beyond (Prod.mk.inj new).2
      · exact acyclic node (TransGen.tail (.single turned) first)

end Walk

section Search

/-- A search whose nodes all have a way back to the target, no longer than the number
of parents. -/
structure Rooted (edges : Edges) (target : String) (state : Search) : Prop where
  started : target ∈ state.visited
  queued : ∀ x ∈ state.queue, x ∈ state.visited
  keyed : ∀ x ∈ state.parent.map Prod.fst, x ∈ state.visited
  spent : state.parent.length + (unseen edges state.visited).card ≤ edges.length
  trails : ∀ x ∈ state.visited, ∃ path, Trail edges state.parent target x path ∧
    path.length ≤ state.parent.length

theorem Rooted.begin (edges : Edges) (target : String) :
    Rooted edges target ⟨[target], [target], []⟩ where
  started := List.mem_singleton_self target
  queued := fun _ member => member
  keyed := by simp
  spent := by simpa using unseen_le edges [target]
  trails := by
    intro x member
    obtain rfl := List.mem_singleton.mp member
    exact ⟨[], .done, Nat.zero_le _⟩

variable {edges : Edges} {goal target node : String} {state : Search} {queue : List String}

theorem Rooted.scan (goal : String) (rooted : Rooted edges target state)
    (next : state.queue = node :: queue) :
    Rooted edges target (scan goal node edges { state with queue := queue }).1 := by
  obtain ⟨fresh, queue', parent, visited, nodup, new⟩ :=
    scan_fresh goal node edges { state with queue := queue }
  have inside : node ∈ state.visited := rooted.queued node (by simp [next])
  have apart : ∀ y ∈ fresh, y ∉ state.parent.map Prod.fst :=
    fun y member known => (new y member).1 (rooted.keyed y known)
  obtain ⟨path, trail, short⟩ := rooted.trails node inside
  constructor
  · exact (visited target).mpr (.inr rooted.started)
  · intro x member
    rw [queue'] at member
    rcases List.mem_append.mp member with old | fresh
    · exact (visited x).mpr (.inr (rooted.queued x (by simp [next, old])))
    · exact (visited x).mpr (.inl fresh)
  · intro x member
    rw [parent, List.map_append, List.mem_append] at member
    rcases member with fresh | old
    · exact (visited x).mpr (.inl (by simpa using fresh))
    · exact (visited x).mpr (.inr (rooted.keyed x old))
  · have spent := unseen_spent nodup visited fun x member =>
      mem_unseen_of_active (new x member).2 (new x member).1
    have before := rooted.spent
    rw [parent, List.length_append, List.length_map, List.length_reverse]
    simp only at spent ⊢
    omega
  · intro x member
    rw [parent, List.length_append, List.length_map, List.length_reverse]
    rcases (visited x).mp member with queued | old
    · have other : x ≠ target := by
        rintro rfl
        exact (new x queued).1 rooted.started
      have known : (fresh.reverse.map (fun y => (y, node)) ++ state.parent).lookup x =
          some node := by
        rw [List.lookup_append, lookup_map_const, if_pos (List.mem_reverse.mpr queued),
          Option.some_or]
      have more := List.length_pos_of_mem queued
      refine ⟨x :: path, .up other known (new x queued).2 (trail.extend apart), ?_⟩
      rw [List.length_cons]
      dsimp only
      omega
    · obtain ⟨back, walk, most⟩ := rooted.trails x old
      dsimp only
      exact ⟨back, walk.extend apart, by omega⟩

/-- A search that ends at a node has a way from it back to the target. -/
theorem Rooted.trail (goal : String) (rooted : Rooted edges target state)
    (next : state.queue = node :: queue) :
    ∃ path, Trail edges (WaitForGraph.scan goal node edges { state with queue := queue }).1.parent
      target node path ∧ path.length < edges.length + 1 := by
  have after := rooted.scan goal next
  have inside : node ∈ state.visited := rooted.queued node (by simp [next])
  obtain ⟨path, trail, short⟩ := after.trails node (scan_keeps inside)
  have spent := after.spent
  exact ⟨path, trail, by omega⟩

theorem searchChecked_succ {fuel : Nat} (next : state.queue = node :: queue) :
    searchChecked goal target edges (fuel + 1) state =
      if (scan goal node edges { state with queue := queue }).2 then
        (walkBackChecked (scan goal node edges { state with queue := queue }).1.parent target
          (edges.length + 1) node).map fun path => some ([goal, target] ++ path)
      else searchChecked goal target edges fuel
        (scan goal node edges { state with queue := queue }).1 := by
  rw [searchChecked, next]
  dsimp only
  split <;> rename_i scanned <;> simp [scanned, Option.map_eq_bind]

/-- The search ends, and so does the walk. -/
theorem searchChecked_eq : ∀ (fuel : Nat) (state : Search), Rooted edges target state →
    state.queue.length + (unseen edges state.visited).card ≤ fuel →
    searchChecked goal target edges (fuel + 1) state =
      some (search goal target edges fuel state) := by
  intro fuel
  induction fuel with
  | zero =>
    intro state rooted enough
    have empty : state.queue = [] := List.length_eq_zero_iff.mp (by omega)
    simp [searchChecked, search, empty]
  | succ fuel ih =>
    intro state rooted enough
    cases next : state.queue with
    | nil => simp [searchChecked, search, next]
    | cons node queue =>
      rw [searchChecked_succ next, search_succ next]
      by_cases found : (scan goal node edges { state with queue := queue }).2 = true
      · obtain ⟨path, trail, short⟩ := rooted.trail goal next
        obtain ⟨walked, checked⟩ := walkBack_of_trail trail short
        rw [if_pos found, if_pos found, walked, checked, Option.map_some]
      · rw [if_neg found, if_neg found]
        apply ih _ (rooted.scan goal next)
        obtain ⟨fresh, queue', -, visited, nodup, new⟩ :=
          scan_fresh goal node edges { state with queue := queue }
        have spent := unseen_spent nodup visited fun x member =>
          mem_unseen_of_active (new x member).2 (new x member).1
        rw [next, List.length_cons] at enough
        rw [queue', List.length_append]
        simp only at spent ⊢
        omega

/-- What the search returns is a way back from a node that leads to the goal. -/
theorem search_trail : ∀ (fuel : Nat) (state : Search) (cycle : List String),
    Rooted edges target state → search goal target edges fuel state = some cycle →
    ∃ parent node path, Trail edges parent target node path ∧ Active edges node goal ∧
      cycle = [goal, target] ++ path := by
  intro fuel
  induction fuel with
  | zero => intro state cycle _ found; cases found
  | succ fuel ih =>
    intro state cycle rooted found
    cases next : state.queue with
    | nil => simp [search, next] at found
    | cons node queue =>
      rw [search_succ next] at found
      split_ifs at found with closing
      · obtain ⟨path, trail, short⟩ := rooted.trail goal next
        rw [(walkBack_of_trail trail short).1] at found
        exact ⟨_, node, path, trail, (scan_found edges _).mp closing, (Option.some.inj found).symm⟩
      · exact ih _ cycle (rooted.scan goal next) found

/-- While a node that the target leads to waits in front of the queue and leads to the
goal, the search ends at such a node. -/
theorem search_short {between : String} (closing : Active edges between goal) :
    ∀ (fuel : Nat) (state : Search) (cycle first rest : List String), Rooted edges target state →
    state.queue = first ++ rest → (∀ x ∈ first, state.parent.lookup x = some target) →
    between ∈ first → search goal target edges fuel state = some cycle → cycle.length ≤ 3 := by
  intro fuel
  induction fuel with
  | zero => intro state cycle first rest _ _ _ _ found; cases found
  | succ fuel ih =>
    intro state cycle first rest rooted next near waiting found
    cases first with
    | nil => cases waiting
    | cons node first =>
      have next : state.queue = node :: (first ++ rest) := next
      obtain ⟨fresh, queue', parent, visited, nodup, new⟩ :=
        scan_fresh goal node edges { state with queue := first ++ rest }
      have apart : ∀ y ∈ fresh, y ∉ state.parent.map Prod.fst :=
        fun y member known => (new y member).1 (rooted.keyed y known)
      have near' : ∀ x ∈ node :: first,
          (scan goal node edges { state with queue := first ++ rest }).1.parent.lookup x =
            some target := by
        intro x member
        rw [parent, lookup_extend (mem_keys_of_lookup (near x member)) apart]
        exact near x member
      rw [search_succ next] at found
      split_ifs at found with ends
      · obtain rfl := Option.some.inj found
        obtain ⟨path, trail, enough⟩ := rooted.trail goal next
        have short := trail.short (near' node List.mem_cons_self)
        rw [(walkBack_of_trail trail enough).1, List.length_append]
        exact Nat.add_le_add_left short 2
      · have other : between ≠ node := by
          rintro rfl
          exact ends ((scan_found edges _).mpr closing)
        refine ih _ cycle first (rest ++ fresh) (rooted.scan goal next) ?_ ?_ ?_ found
        · rw [queue', List.append_assoc]
        · exact fun x member => near' x (List.mem_cons_of_mem node member)
        · exact (List.mem_cons.mp waiting).resolve_left other

end Search

variable {graph : WaitForGraph} {waiter target : String} {cycle : List String}

theorem closesCycleChecked_eq (graph : WaitForGraph) (waiter target : String) :
    graph.closesCycleChecked waiter target = some (graph.closesCycle waiter target) := by
  unfold closesCycleChecked closesCycle
  split_ifs with same
  · rfl
  · apply searchChecked_eq _ _ (Rooted.begin graph.edges target)
    have bound := unseen_le graph.edges [target]
    simp only [List.length_singleton]
    omega

theorem closes_trail (other : waiter ≠ target)
    (refused : graph.closesCycle waiter target = some cycle) :
    ∃ parent node path, Trail graph.edges parent target node path ∧
      Active graph.edges node waiter ∧ cycle = [waiter, target] ++ path := by
  rw [closesCycle, if_neg other] at refused
  exact search_trail _ _ cycle (Rooted.begin graph.edges target) refused

theorem closes_short (other : waiter ≠ target) (near : Near graph.edges waiter target)
    (refused : graph.closesCycle waiter target = some cycle) : cycle.length ≤ 3 := by
  rw [closesCycle, if_neg other, search_succ rfl] at refused
  split_ifs at refused with ends
  · obtain rfl := Option.some.inj refused
    simp [walkBack]
  · have off : ¬ Active graph.edges target waiter := mt (scan_found graph.edges _).mpr ends
    obtain ⟨between, leaving, closing⟩ := (near.resolve_left other).resolve_left off
    have apart : between ≠ target := by
      rintro rfl
      exact off closing
    obtain ⟨fresh, queue, parent, visited, -⟩ :=
      scan_fresh waiter target graph.edges ⟨[], [target], []⟩
    have seen := (visited between).mp (scan_covers graph.edges _ off between leaving)
    have queued : between ∈ fresh := seen.resolve_right (by simpa using apart)
    have rooted := (Rooted.begin graph.edges target).scan waiter rfl
    refine search_short closing _ _ cycle fresh [] rooted ?_ ?_ queued refused
    · rw [queue, List.nil_append, List.append_nil]
    · intro x member
      rw [parent, List.append_nil, lookup_map_const, if_pos (List.mem_reverse.mpr member)]

theorem near_iff_short {parent : List (String × String)} {node : String} {path : List String}
    (other : waiter ≠ target) (trail : Trail graph.edges parent target node path)
    (closing : Active graph.edges node waiter)
    (refused : graph.closesCycle waiter target = some ([waiter, target] ++ path)) :
    Near graph.edges waiter target ↔ path.length ≤ 1 := by
  constructor
  · intro near
    have short := closes_short other near refused
    rw [List.length_append, List.length_cons, List.length_cons, List.length_nil] at short
    omega
  · intro short
    cases trail with
    | done => exact .inr (.inl closing)
    | up _ _ active trail =>
      cases trail with
      | done => exact .inr (.inr ⟨node, active, closing⟩)
      | up => simp at short

/-- The walk over the parents of a refused await ends and meets no missing parent. The
list it gives is a cycle in order exactly when the target leads back to the waiter over
at most one other node. -/
theorem refused_cycle_in_order (acyclic : Acyclic (Active graph.edges))
    (refused : graph.closesCycle waiter target = some cycle) :
    graph.closesCycleChecked waiter target = some (some cycle) ∧
      (Genuine graph.edges waiter target cycle ↔ Near graph.edges waiter target) := by
  refine ⟨by rw [closesCycleChecked_eq, refused], ?_⟩
  by_cases same : waiter = target
  · subst same
    rw [closesCycle, if_pos rfl] at refused
    obtain rfl := Option.some.inj refused
    simp [Genuine, Near]
  · obtain ⟨parent, node, path, trail, closing, rfl⟩ := closes_trail same refused
    rw [genuine_iff_short acyclic trail closing, near_iff_short same trail closing refused]

theorem two_awaits : Outstanding ⟨[(("a", "b"), 1), (("b", "c"), 1)]⟩
    [⟨"b", "c"⟩, ⟨"a", "b"⟩] := by
  have first : Outstanding ⟨[(("a", "b"), 1)]⟩ [⟨"a", "b"⟩] :=
    Outstanding.new.granted (granted_of_free (by decide))
  exact first.granted (granted_of_free (by decide))

/-- Two awaits in a row, and a third that closes the circle. -/
theorem refused_cycle_in_order_short : Genuine [(("a", "b"), 1), (("b", "c"), 1)] "c" "a"
    ["c", "a", "b"] := by
  have toB : Active [(("a", "b"), 1), (("b", "c"), 1)] "a" "b" := ⟨1, by decide, by decide⟩
  have toC : Active [(("a", "b"), 1), (("b", "c"), 1)] "b" "c" := ⟨1, by decide, by decide⟩
  exact (refused_cycle_in_order two_awaits.accounts.acyclic (by decide)).2.mpr
    (.inr (.inr ⟨"b", toB, toC⟩))

/-- With two nodes in between, the list leads from the target to a node that it does not
await. -/
theorem refused_cycle_reversed : ¬ ∀ (graph : WaitForGraph) (waiter target : String)
    (cycle : List String), Acyclic (Active graph.edges) →
    graph.closesCycle waiter target = some cycle →
    graph.closesCycleChecked waiter target = some (some cycle) ∧
      Genuine graph.edges waiter target cycle := by
  have third : Outstanding ⟨[(("a", "b"), 1), (("b", "c"), 1), (("c", "d"), 1)]⟩
      [⟨"c", "d"⟩, ⟨"b", "c"⟩, ⟨"a", "b"⟩] := two_awaits.granted (granted_of_free (by decide))
  intro claim
  have genuine := (claim _ "d" "a" ["d", "a", "c", "b"] third.accounts.acyclic (by decide)).2
  rcases genuine ("a", "c") (by decide) with new | ⟨count, member, -⟩
  · simp at new
  · simp at member

end Crewd.WaitForGraph
