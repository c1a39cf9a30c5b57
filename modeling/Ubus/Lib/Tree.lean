/-
**Search trees as sorted lists of nodes.**

A tree is the list of its nodes in iteration order: a key and the address of the record the node is
embedded in. Insertion places a node after all nodes with the same key (`insertBy`, for entries of
any kind with a key), deletion is by address, and a lookup returns the first node with the key, or
the first node at or after it.

* `sorted_insert`, `sorted_delete`: the order is kept.
* `find_eq_some_iff`: in such a tree the lookup is membership.
-/

import Mathlib.Algebra.Order.Ring.Int
import Mathlib.Order.Basic
import Mathlib.Data.List.Nodup
import Mathlib.Data.List.Sort

set_option linter.unusedSectionVars false

namespace Ubus.Lib

variable {κ : Type} [LinearOrder κ]
variable {addr other : Nat}

/-! ### Insertion by key -/

section InsertBy

variable {ι : Type} (key : ι → κ)

/-- Insert an entry into a list in key order, after the entries with the same key. -/
def insertBy (entry : ι) (entries : List ι) : List ι :=
  entries.orderedInsert (fun first second => key first < key second) entry

theorem mem_insertBy {entry other : ι} {entries : List ι} :
    other ∈ insertBy key entry entries ↔ other = entry ∨ other ∈ entries :=
  List.mem_orderedInsert _

theorem insertBy_perm (entry : ι) (entries : List ι) :
    (insertBy key entry entries).Perm (entry :: entries) :=
  List.perm_orderedInsert _ _ _

theorem sorted_insertBy {entry : ι} {entries : List ι}
    (sorted : entries.Pairwise fun first second => key first ≤ key second) :
    (insertBy key entry entries).Pairwise fun first second => key first ≤ key second := by
  induction entries with
  | nil => exact List.pairwise_singleton _ _
  | cons first rest ih =>
    obtain ⟨headLe, tailSorted⟩ := List.pairwise_cons.mp sorted
    unfold insertBy List.orderedInsert
    split
    · rename_i below
      refine List.pairwise_cons.mpr ⟨fun other member => ?_, sorted⟩
      rcases List.mem_cons.mp member with rfl | member
      · exact le_of_lt below
      · exact le_trans (le_of_lt below) (headLe other member)
    · rename_i above
      refine List.pairwise_cons.mpr ⟨fun other member => ?_, ih tailSorted⟩
      rcases (mem_insertBy key).mp member with rfl | member
      · exact not_lt.mp above
      · exact headLe other member

end InsertBy

/-! ### Trees -/

/-- The nodes of a tree in iteration order: key and address of the record. -/
abbrev AvlTree (κ : Type) := List (κ × Nat)

namespace AvlTree

/-- Insert a node, after the nodes with the same key. -/
def insert (key : κ) (addr : Nat) (tree : AvlTree κ) : AvlTree κ :=
  insertBy Prod.fst (key, addr) tree

/-- The record of the first node with this key. -/
def find (key : κ) (tree : AvlTree κ) : Option Nat :=
  (tree.find? fun node => node.1 = key).map Prod.snd

/-- Insert into a tree without duplicates: `none` when the key is present. -/
def insertNew (key : κ) (addr : Nat) (tree : AvlTree κ) : Option (AvlTree κ) :=
  if (tree.find key).isSome then none else some (tree.insert key addr)

/-- Remove the node of one record. -/
def delete (addr : Nat) (tree : AvlTree κ) : AvlTree κ :=
  tree.filter fun node => node.2 ≠ addr

/-- The nodes from the first one at or after a key on. -/
def findGe (key : κ) (tree : AvlTree κ) : AvlTree κ :=
  tree.dropWhile fun node => node.1 < key

/-- Nodes are in key order. -/
def Sorted (tree : AvlTree κ) : Prop :=
  tree.Pairwise fun first second => first.1 ≤ second.1

/-- No key occurs twice. -/
def UniqueKeys (tree : AvlTree κ) : Prop :=
  (tree.map Prod.fst).Nodup

theorem mem_insert {key : κ} {tree : AvlTree κ} {node : κ × Nat} :
    node ∈ tree.insert key addr ↔ node = (key, addr) ∨ node ∈ tree :=
  mem_insertBy _

theorem insert_perm (key : κ) (addr : Nat) (tree : AvlTree κ) :
    (tree.insert key addr).Perm ((key, addr) :: tree) :=
  insertBy_perm _ _ _

theorem sorted_insert {key : κ} {tree : AvlTree κ} (sorted : tree.Sorted) :
    (tree.insert key addr).Sorted :=
  sorted_insertBy _ sorted

theorem mem_delete {tree : AvlTree κ} {node : κ × Nat} :
    node ∈ tree.delete addr ↔ node ∈ tree ∧ node.2 ≠ addr := by
  simp [delete]

theorem filter_insert {key : κ} {p : κ × Nat → Bool} (out : p (key, addr) = false)
    (tree : AvlTree κ) : (tree.insert key addr).filter p = tree.filter p := by
  have split := List.takeWhile_append_dropWhile
    (p := fun node : κ × Nat => decide ¬ Prod.fst (key, addr) < node.1) (l := tree)
  rw [insert, insertBy, List.orderedInsert_eq_take_drop, List.filter_append,
    List.filter_cons_of_neg (by rw [out]; exact Bool.false_ne_true), ← List.filter_append, split]

theorem sorted_delete {tree : AvlTree κ} (sorted : tree.Sorted) : (tree.delete addr).Sorted :=
  List.Pairwise.sublist List.filter_sublist sorted

theorem uniqueKeys_delete {tree : AvlTree κ} (unique : tree.UniqueKeys) :
    (tree.delete addr).UniqueKeys :=
  List.Nodup.sublist (List.Sublist.map _ List.filter_sublist) unique

theorem find_eq_none_iff {key : κ} {tree : AvlTree κ} :
    tree.find key = none ↔ ∀ node ∈ tree, node.1 ≠ key := by
  simp [find]

theorem mem_of_find {key : κ} {tree : AvlTree κ} (found : tree.find key = some addr) :
    (key, addr) ∈ tree := by
  unfold find at found
  obtain ⟨node, hit, same⟩ := Option.map_eq_some_iff.mp found
  have keyEq : node.1 = key := by simpa using List.find?_some hit
  have member := List.mem_of_find?_eq_some hit
  rw [← keyEq, ← same]
  exact member

theorem UniqueKeys.eq_of_key {tree : AvlTree κ} (unique : tree.UniqueKeys) {key : κ}
    {first second : Nat} (one : (key, first) ∈ tree) (two : (key, second) ∈ tree) :
    first = second := by
  have same := List.inj_on_of_nodup_map unique one two rfl
  exact (Prod.mk.inj same).2

/-- **In a tree without duplicates a lookup is membership.** -/
theorem find_eq_some_iff {key : κ} {tree : AvlTree κ} (unique : tree.UniqueKeys) :
    tree.find key = some addr ↔ (key, addr) ∈ tree := by
  constructor
  · exact mem_of_find
  intro member
  cases found : tree.find key with
  | none => exact absurd rfl (find_eq_none_iff.mp found _ member)
  | some other => rw [unique.eq_of_key (mem_of_find found) member]

theorem insertNew_eq_some {key : κ} {tree after : AvlTree κ}
    (inserted : tree.insertNew key addr = some after) :
    after = tree.insert key addr ∧ ∀ node ∈ tree, node.1 ≠ key := by
  unfold insertNew at inserted
  split at inserted
  · cases inserted
  · rename_i absent
    refine ⟨(Option.some.inj inserted).symm, find_eq_none_iff.mp ?_⟩
    simpa using absent

theorem uniqueKeys_insert {key : κ} {tree : AvlTree κ} (unique : tree.UniqueKeys)
    (absent : ∀ node ∈ tree, node.1 ≠ key) : (tree.insert key addr).UniqueKeys := by
  have perm := (insert_perm key addr tree).map Prod.fst
  refine (List.Perm.nodup_iff perm).mpr (List.nodup_cons.mpr ⟨?_, unique⟩)
  intro member
  obtain ⟨node, inside, same⟩ := List.mem_map.mp member
  exact absent node inside same

/-! ### Trees that index records -/

/-- A record is in the tree. -/
def Has (tree : AvlTree κ) (addr : Nat) : Prop := addr ∈ tree.map Prod.snd

instance (tree : AvlTree κ) (addr : Nat) : Decidable (tree.Has addr) :=
  inferInstanceAs (Decidable (_ ∈ _))

theorem has_of_mem {tree : AvlTree κ} {node : κ × Nat} (member : node ∈ tree) : tree.Has node.2 :=
  List.mem_map_of_mem member

theorem has_insert {key : κ} {tree : AvlTree κ} :
    (tree.insert key addr).Has other ↔ other = addr ∨ tree.Has other := by
  rw [Has, ((insert_perm key addr tree).map Prod.snd).mem_iff, List.map_cons, List.mem_cons, Has]

theorem perm_delete {tree : AvlTree κ} (addrs : (tree.map Prod.snd).Nodup) (has : tree.Has addr) :
    ∃ key, tree.Perm ((key, addr) :: tree.delete addr) := by
  obtain ⟨node, member, rfl⟩ := List.mem_map.mp has
  refine ⟨node.1, ?_⟩
  have same : tree.delete node.2 = tree.erase node := by
    rw [(List.Nodup.of_map _ addrs).erase_eq_filter]
    refine List.filter_congr fun other inside => ?_
    have unique : other.2 = node.2 ↔ other = node :=
      ⟨fun same => List.inj_on_of_nodup_map addrs inside member same, fun same => by rw [same]⟩
    simp only [ne_eq, unique, bne, beq_eq_decide, decide_not]
  rw [same]
  exact List.perm_cons_erase member

theorem has_delete {tree : AvlTree κ} :
    (tree.delete addr).Has other ↔ tree.Has other ∧ other ≠ addr := by
  constructor
  · intro has
    obtain ⟨node, member, rfl⟩ := List.mem_map.mp has
    obtain ⟨inside, differs⟩ := mem_delete.mp member
    exact ⟨has_of_mem inside, differs⟩
  · rintro ⟨has, differs⟩
    obtain ⟨node, member, rfl⟩ := List.mem_map.mp has
    exact has_of_mem (mem_delete.mpr ⟨member, differs⟩)

/-- Each key and each record occurs once, every record knows its key, and the records are at
addresses handed out before `brk`. -/
structure Keyed (tree : AvlTree κ) (keyOf : Nat → κ) (brk : Nat) : Prop where
  unique : tree.UniqueKeys
  addrs : (tree.map Prod.snd).Nodup
  keys : ∀ node ∈ tree, keyOf node.2 = node.1
  below : ∀ node ∈ tree, node.2 < brk

namespace Keyed

variable {tree : AvlTree κ} {keyOf keyOf' : Nat → κ} {brk brk' : Nat}

theorem congr (keyed : Keyed tree keyOf brk)
    (same : ∀ addr, tree.Has addr → keyOf' addr = keyOf addr) (more : brk ≤ brk') :
    Keyed tree keyOf' brk' :=
  ⟨keyed.unique, keyed.addrs,
    fun node member => (same node.2 (has_of_mem member)).trans (keyed.keys node member),
    fun node member => lt_of_lt_of_le (keyed.below node member) more⟩

theorem mem_iff (keyed : Keyed tree keyOf brk) {key : κ} :
    (key, addr) ∈ tree ↔ tree.Has addr ∧ keyOf addr = key := by
  constructor
  · exact fun member => ⟨has_of_mem member, keyed.keys _ member⟩
  rintro ⟨has, rfl⟩
  obtain ⟨node, member, rfl⟩ := List.mem_map.mp has
  rw [keyed.keys node member]
  exact member

/-- **A lookup finds exactly the record with the key.** -/
theorem find_iff (keyed : Keyed tree keyOf brk) {key : κ} :
    tree.find key = some addr ↔ tree.Has addr ∧ keyOf addr = key :=
  (find_eq_some_iff keyed.unique).trans keyed.mem_iff

theorem lt_of_has (keyed : Keyed tree keyOf brk) (has : tree.Has addr) : addr < brk := by
  obtain ⟨node, member, rfl⟩ := List.mem_map.mp has
  exact keyed.below node member

theorem insert (keyed : Keyed tree keyOf brk) {key : κ} (fresh : brk ≤ addr)
    (absent : ∀ node ∈ tree, node.1 ≠ key) (here : keyOf' addr = key)
    (same : ∀ other, tree.Has other → keyOf' other = keyOf other) (more : addr < brk') :
    Keyed (tree.insert key addr) keyOf' brk' := by
  have notIn : ¬ tree.Has addr := fun has => absurd (keyed.lt_of_has has) (not_lt.mpr fresh)
  refine ⟨uniqueKeys_insert keyed.unique absent, ?_, ?_, ?_⟩
  · exact ((insert_perm key addr tree).map Prod.snd).nodup_iff.mpr
      (List.nodup_cons.mpr ⟨notIn, keyed.addrs⟩)
  · intro node member
    rcases mem_insert.mp member with rfl | member
    · exact here
    · exact (same node.2 (has_of_mem member)).trans (keyed.keys node member)
  · intro node member
    rcases mem_insert.mp member with rfl | member
    · exact more
    · exact lt_trans (lt_of_lt_of_le (keyed.below node member) fresh) more

theorem delete (keyed : Keyed tree keyOf brk) (addr : Nat) : Keyed (tree.delete addr) keyOf brk :=
  ⟨uniqueKeys_delete keyed.unique, List.Nodup.sublist (List.Sublist.map _ List.filter_sublist) keyed.addrs,
    fun node member => keyed.keys node (mem_delete.mp member).1,
    fun node member => keyed.below node (mem_delete.mp member).1⟩

end Keyed

theorem findGe_eq_filter {key : κ} {tree : AvlTree κ} (sorted : tree.Sorted) :
    tree.findGe key = tree.filter fun node => ¬ node.1 < key := by
  induction tree with
  | nil => rfl
  | cons first rest ih =>
    obtain ⟨headLe, tailSorted⟩ := List.pairwise_cons.mp sorted
    by_cases below : first.1 < key
    · rw [findGe, List.dropWhile_cons_of_pos (by simpa using below),
        List.filter_cons_of_neg (by simpa using below)]
      exact ih tailSorted
    · rw [findGe, List.dropWhile_cons_of_neg (by simpa using below)]
      refine (List.filter_eq_self.mpr fun node member => ?_).symm
      rcases List.mem_cons.mp member with rfl | member
      · simpa using below
      · have high := headLe node member
        have notBelow : ¬ node.1 < key := fun low => below (lt_of_le_of_lt high low)
        simpa using notBelow

end AvlTree

end Ubus.Lib
