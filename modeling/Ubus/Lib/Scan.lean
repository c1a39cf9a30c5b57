/-
**A scan of a tree that changes in between.**

A scan visits the nodes of a tree in key order. It may pause before a node: then it remembers the key of
that node, and goes on at or after this key, in whatever the tree has become.

* `Scan.Advance tree scan scan' paused` — the scan goes on in a tree, and pauses or comes to its end.
* `Good.advance`, `Good.finish`: a scan that pauses stays good; one that ends has seen the nodes in strict
  order, and all nodes that were there all the time.
-/

import Ubus.Lib.Tree

namespace Ubus.Lib

variable {κ : Type} [LinearOrder κ]

/-- A scan: the nodes seen so far, oldest first, and the key at which it goes on. -/
structure Scan (κ : Type) where
  seen : List (κ × Nat) := []
  next : Option κ := none

namespace Scan

/-- The nodes that are still to come. -/
def ahead (scan : Scan κ) (tree : AvlTree κ) : AvlTree κ :=
  match scan.next with
  | none => tree
  | some key => tree.findGe key

/-- **The scan goes on in a tree**: it sees the first of the nodes ahead, and pauses before the rest. -/
structure Advance (tree : AvlTree κ) (scan scan' : Scan κ) (rest : AvlTree κ) : Prop where
  seen : ∃ sent, scan.ahead tree = sent ++ rest ∧ scan'.seen = scan.seen ++ sent
  next : ∀ node ∈ rest.head?, scan'.next = some node.1

/-- Nodes in strict order. -/
def Ascending (nodes : List (κ × Nat)) : Prop := nodes.Pairwise fun first second => first.1 < second.1

/-- **A scan in good order**; `kept` are nodes that have been in the tree all the time. -/
structure Good (kept : κ → Nat → Prop) (scan : Scan κ) : Prop where
  order : Ascending scan.seen
  below : ∀ node ∈ scan.seen, ∃ key, scan.next = some key ∧ node.1 < key
  complete : ∀ key addr, kept key addr → ∀ limit, scan.next = some limit → key < limit →
    (key, addr) ∈ scan.seen

variable {kept kept' : κ → Nat → Prop} {scan scan' : Scan κ} {tree rest : AvlTree κ}

theorem good_start (kept : κ → Nat → Prop) : Good kept ({} : Scan κ) :=
  ⟨List.Pairwise.nil, nofun, nofun⟩

theorem ascending_of_tree (sorted : tree.Sorted) (unique : tree.UniqueKeys) : Ascending tree := by
  have apart : tree.Pairwise fun first second => first.1 ≠ second.1 := List.pairwise_map.mp unique
  exact (sorted.and apart).imp fun both => lt_of_le_of_ne both.1 both.2

theorem mem_ahead (sorted : tree.Sorted) {node : κ × Nat} :
    node ∈ scan.ahead tree ↔ node ∈ tree ∧ ∀ key, scan.next = some key → key ≤ node.1 := by
  unfold ahead
  cases scan.next with
  | none => simp
  | some limit => simp [AvlTree.findGe_eq_filter sorted]

theorem ascending_ahead (scan : Scan κ) (order : Ascending tree) : Ascending (scan.ahead tree) := by
  unfold ahead
  split
  · exact order
  · exact order.sublist (List.dropWhile_sublist _)

theorem Good.order_advance (good : Good kept scan) (sorted : tree.Sorted) (unique : tree.UniqueKeys)
    (advance : Advance tree scan scan' rest) : Ascending scan'.seen := by
  obtain ⟨sent, split, seen⟩ := advance.seen
  have order := scan.ascending_ahead (ascending_of_tree sorted unique)
  rw [split] at order
  rw [seen]
  refine List.pairwise_append.mpr ⟨good.order, (List.pairwise_append.mp order).1, ?_⟩
  intro old oldSeen new newSent
  obtain ⟨limit, next, less⟩ := good.below old oldSeen
  have ahead : new ∈ scan.ahead tree := split ▸ List.mem_append_left _ newSent
  exact less.trans_le (((mem_ahead sorted).mp ahead).2 limit next)

theorem Good.seen_advance (good : Good kept scan) (sorted : tree.Sorted)
    (advance : Advance tree scan scan' rest) (still : ∀ key addr, kept key addr → (key, addr) ∈ tree)
    {key : κ} {addr : Nat} (is : kept key addr) (before : (key, addr) ∉ rest) :
    (key, addr) ∈ scan'.seen := by
  obtain ⟨sent, split, seen⟩ := advance.seen
  rw [seen]
  by_cases passed : ∀ limit, scan.next = some limit → limit ≤ key
  · have ahead : (key, addr) ∈ scan.ahead tree := (mem_ahead sorted).mpr ⟨still key addr is, passed⟩
    rw [split] at ahead
    exact List.mem_append_right _ ((List.mem_append.mp ahead).resolve_right before)
  · push Not at passed
    obtain ⟨limit, next, less⟩ := passed
    exact List.mem_append_left _ (good.complete key addr is limit next less)

/-- **A scan that pauses stays in good order.** -/
theorem Good.advance (good : Good kept scan) (sorted : tree.Sorted) (unique : tree.UniqueKeys)
    (advance : Advance tree scan scan' rest) (still : ∀ key addr, kept key addr → (key, addr) ∈ tree)
    {node : κ × Nat} (paused : rest.head? = some node) : Good kept scan' := by
  have next := advance.next node paused
  obtain ⟨sent, split, seen⟩ := advance.seen
  obtain ⟨others, rfl⟩ : ∃ others, rest = node :: others := List.head?_eq_some_iff.mp paused
  have order := scan.ascending_ahead (ascending_of_tree sorted unique)
  rw [split] at order
  obtain ⟨-, restOrder, across⟩ := List.pairwise_append.mp order
  refine ⟨good.order_advance sorted unique advance, fun other member => ⟨node.1, next, ?_⟩, ?_⟩
  · rw [seen] at member
    rcases List.mem_append.mp member with old | new
    · obtain ⟨limit, here, less⟩ := good.below other old
      have ahead : node ∈ scan.ahead tree := split ▸ List.mem_append_right _ List.mem_cons_self
      exact less.trans_le (((mem_ahead sorted).mp ahead).2 limit here)
    · exact across other new node List.mem_cons_self
  · intro key addr is limit here less
    rw [next, Option.some_inj] at here
    refine good.seen_advance sorted advance still is fun member => ?_
    rcases List.mem_cons.mp member with same | later
    · rw [← here, ← same] at less
      exact lt_irrefl _ less
    · rw [← here] at less
      exact absurd ((List.pairwise_cons.mp restOrder).1 _ later) less.not_gt

/-- **A scan that ends** has seen all nodes that were there all the time. -/
theorem Good.finish (good : Good kept scan) (sorted : tree.Sorted)
    (advance : Advance tree scan scan' []) (still : ∀ key addr, kept key addr → (key, addr) ∈ tree)
    {key : κ} {addr : Nat} (is : kept key addr) : (key, addr) ∈ scan'.seen :=
  good.seen_advance sorted advance still is List.not_mem_nil

end Scan

end Ubus.Lib
