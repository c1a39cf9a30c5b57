/-
**Comparison functions and ordered containers.**

A comparison in the style of C returns a number whose sign says how its arguments lie. A container
that keeps its nodes in order and searches by descending relies on the comparison being consistent:
the two directions have opposite signs, and "not above" is transitive. Both are asked for only on the
keys that occur.

* `Consistent`, `Consistent.andThen`: such comparisons, and one after the other.
* `Ordered.list`, `meets_list`: a sorted list is such a container.
-/

import Mathlib.Algebra.Order.Ring.Int
import Mathlib.Data.List.Perm.Basic

namespace Ubus.Lib

variable {κ α : Type}

/-- What an ordered container needs of a comparison on the keys it meets. -/
structure Consistent (cmp : κ → κ → Int) (keys : κ → Prop) : Prop where
  opposite : ∀ a b, keys a → keys b → (cmp a b).sign = -(cmp b a).sign
  trans : ∀ a b c, keys a → keys b → keys c → cmp a b ≤ 0 → cmp b c ≤ 0 → cmp a c ≤ 0

namespace Consistent

variable {cmp first second : κ → κ → Int} {keys : κ → Prop}

theorem mono {fewer : κ → Prop} (consistent : Consistent cmp keys) (sub : ∀ a, fewer a → keys a) :
    Consistent cmp fewer :=
  ⟨fun a b ha hb => consistent.opposite a b (sub a ha) (sub b hb),
    fun a b c ha hb hc => consistent.trans a b c (sub a ha) (sub b hb) (sub c hc)⟩

theorem lt_iff (consistent : Consistent cmp keys) {a b : κ} (ha : keys a) (hb : keys b) :
    cmp a b < 0 ↔ 0 < cmp b a := by
  have opposite := consistent.opposite a b ha hb
  rw [← Int.sign_eq_neg_one_iff_neg, ← Int.sign_eq_one_iff_pos, opposite]
  exact neg_inj

theorem eq_zero_iff (consistent : Consistent cmp keys) {a b : κ} (ha : keys a) (hb : keys b) :
    cmp a b = 0 ↔ cmp b a = 0 := by
  have opposite := consistent.opposite a b ha hb
  rw [← Int.sign_eq_zero_iff_zero, ← Int.sign_eq_zero_iff_zero (a := cmp b a), opposite, neg_eq_zero]

theorem andThen (one : Consistent first keys) (two : Consistent second keys) :
    Consistent (fun a b => if first a b ≠ 0 then first a b else second a b) keys := by
  constructor
  · intro a b ha hb
    have equal := one.eq_zero_iff ha hb
    by_cases zero : first a b = 0
    · rw [if_neg (by simpa using zero), if_neg (by simpa using equal.mp zero)]
      exact two.opposite a b ha hb
    · rw [if_pos zero, if_pos fun is => zero (equal.mpr is)]
      exact one.opposite a b ha hb
  · intro a b c ha hb hc low high
    have below : ∀ {x y}, (if first x y ≠ 0 then first x y else second x y) ≤ 0 → first x y ≤ 0 := by
      intro x y le
      split at le
      · exact le
      · omega
    have le := one.trans a b c ha hb hc (below low) (below high)
    by_cases zero : first a c = 0
    · -- both steps are equal for the first comparison, or one of them would go back up
      have back : first c a ≤ 0 := ((one.eq_zero_iff ha hc).mp zero).le
      have same : first a b = 0 := by
        by_contra differs
        have up := (one.lt_iff ha hb).mp (lt_of_le_of_ne (below low) differs)
        have down := one.trans b c a hb hc ha (below high) back
        omega
      have same' : first b c = 0 := by
        by_contra differs
        have up := (one.lt_iff hb hc).mp (lt_of_le_of_ne (below high) differs)
        have down := one.trans c a b hc ha hb back (below low)
        omega
      rw [if_neg (by simpa using same)] at low
      rw [if_neg (by simpa using same')] at high
      rw [if_neg (by simpa using zero)]
      exact two.trans a b c ha hb hc low high
    · rw [if_pos zero]
      exact le

end Consistent

/-! ### Ordered containers -/

/-- A container of nodes with keys: its nodes in order, after they were inserted one by one, and the
nodes it visits from the first one not below a key to the last one not above it. -/
structure Ordered (α κ : Type) where
  elements : (κ → κ → Int) → (α → κ) → List α → List α
  range : (κ → κ → Int) → (α → κ) → List α → κ → List α

/-- What the container does if the comparison is consistent. -/
structure Ordered.Meets (tree : Ordered α κ) (cmp : κ → κ → Int) (key : α → κ) : Prop where
  perm : ∀ nodes, Consistent cmp (fun k => ∃ node ∈ nodes, key node = k) →
    (tree.elements cmp key nodes).Perm nodes
  sorted : ∀ nodes, Consistent cmp (fun k => ∃ node ∈ nodes, key node = k) →
    (tree.elements cmp key nodes).Pairwise fun a b => cmp (key a) (key b) ≤ 0
  range : ∀ nodes k, Consistent cmp (fun k' => k' = k ∨ ∃ node ∈ nodes, key node = k') →
    tree.range cmp key nodes k = ((tree.elements cmp key nodes).dropWhile fun node =>
      cmp (key node) k < 0).takeWhile fun node => cmp (key node) k ≤ 0

section Range

variable {cmp : κ → κ → Int} {key : α → κ} {k : κ} {keys : κ → Prop}

theorem takeWhile_eq_equal (consistent : Consistent cmp keys) (here : keys k) {nodes : List α}
    (known : ∀ node ∈ nodes, keys (key node))
    (sorted : nodes.Pairwise fun a b => cmp (key a) (key b) ≤ 0)
    (above : ∀ node ∈ nodes, 0 ≤ cmp (key node) k) :
    (nodes.takeWhile fun node => cmp (key node) k ≤ 0) = nodes.filter fun node => cmp (key node) k = 0 := by
  induction nodes with
  | nil => rfl
  | cons first rest ih =>
    obtain ⟨least, sorted⟩ := List.pairwise_cons.mp sorted
    obtain ⟨mine, known⟩ := List.forall_mem_cons.mp known
    obtain ⟨low, above⟩ := List.forall_mem_cons.mp above
    rw [List.takeWhile_cons, List.filter_cons]
    by_cases equal : cmp (key first) k = 0
    · rw [if_pos (by simpa using equal.le), if_pos (by simpa using equal), ih known sorted above]
    rw [if_neg (by simp; omega), if_neg (by simpa using equal)]
    symm
    refine List.filter_eq_nil_iff.mpr fun node member => ?_
    have no : ¬ cmp (key node) k = 0 := fun is =>
      absurd (consistent.trans _ _ _ mine (known node member) here (least node member) is.le) (by omega)
    simpa using no

theorem range_eq (consistent : Consistent cmp keys) (here : keys k) {nodes : List α}
    (known : ∀ node ∈ nodes, keys (key node))
    (sorted : nodes.Pairwise fun a b => cmp (key a) (key b) ≤ 0) :
    ((nodes.dropWhile fun node => cmp (key node) k < 0).takeWhile fun node => cmp (key node) k ≤ 0) =
      nodes.filter fun node => cmp (key node) k = 0 := by
  induction nodes with
  | nil => rfl
  | cons first rest ih =>
    obtain ⟨least, tail⟩ := List.pairwise_cons.mp sorted
    obtain ⟨mine, others⟩ := List.forall_mem_cons.mp known
    by_cases below : cmp (key first) k < 0
    · rw [List.dropWhile_cons, if_pos (by simpa using below), List.filter_cons,
        if_neg (by simp; omega), ih others tail]
    rw [List.dropWhile_cons, if_neg (by simpa using below)]
    refine takeWhile_eq_equal consistent here known sorted fun node member => ?_
    rcases List.mem_cons.mp member with rfl | later
    · omega
    by_contra under
    have low : cmp (key node) k ≤ 0 := by omega
    have first' := consistent.trans _ _ _ mine (others node later) here (least node later) low
    have back := (consistent.lt_iff (others node later) here).mp (by omega)
    have equal : cmp k (key first) = 0 := (consistent.eq_zero_iff mine here).mp (by omega)
    have chain := consistent.trans _ _ _ here mine (others node later) equal.le (least node later)
    omega

/-- **The nodes visited for a key are those that compare equal to it.** -/
theorem range_perm {tree : Ordered α κ} (meets : tree.Meets cmp key) (nodes : List α) (k : κ)
    (consistent : Consistent cmp fun k' => k' = k ∨ ∃ node ∈ nodes, key node = k') :
    (tree.range cmp key nodes k).Perm (nodes.filter fun node => cmp (key node) k = 0) := by
  have stored : Consistent cmp fun k' => ∃ node ∈ nodes, key node = k' :=
    consistent.mono fun _ => Or.inr
  have perm := meets.perm nodes stored
  rw [meets.range nodes k consistent, range_eq consistent (Or.inl rfl) (fun node member =>
    Or.inr ⟨node, perm.mem_iff.mp member, rfl⟩) (meets.sorted nodes stored)]
  exact perm.filter _

end Range

/-! ### A container -/

/-- Insert behind everything that is not above. -/
def placeBy (cmp : κ → κ → Int) (key : α → κ) (node : α) : List α → List α
  | [] => [node]
  | first :: rest =>
    if cmp (key node) (key first) < 0 then node :: first :: rest
    else first :: placeBy cmp key node rest

/-- The nodes as a sorted list. -/
def Ordered.list : Ordered α κ where
  elements cmp key nodes := nodes.foldl (fun sorted node => placeBy cmp key node sorted) []
  range cmp key nodes k :=
    ((nodes.foldl (fun sorted node => placeBy cmp key node sorted) []).dropWhile fun node =>
      cmp (key node) k < 0).takeWhile fun node => cmp (key node) k ≤ 0

theorem placeBy_perm (cmp : κ → κ → Int) (key : α → κ) (node : α) (nodes : List α) :
    (placeBy cmp key node nodes).Perm (node :: nodes) := by
  induction nodes with
  | nil => exact List.Perm.refl _
  | cons first rest ih =>
    unfold placeBy
    split
    · exact List.Perm.refl _
    · exact (ih.cons first).trans (List.Perm.swap node first rest)

theorem placeBy_sorted {cmp : κ → κ → Int} {key : α → κ} {keys : κ → Prop}
    (consistent : Consistent cmp keys) {node : α} (here : keys (key node)) {nodes : List α}
    (known : ∀ other ∈ nodes, keys (key other))
    (sorted : nodes.Pairwise fun a b => cmp (key a) (key b) ≤ 0) :
    (placeBy cmp key node nodes).Pairwise fun a b => cmp (key a) (key b) ≤ 0 := by
  induction nodes with
  | nil => exact List.pairwise_singleton ..
  | cons first rest ih =>
    obtain ⟨least, tail⟩ := List.pairwise_cons.mp sorted
    obtain ⟨mine, others⟩ := List.forall_mem_cons.mp known
    unfold placeBy
    split
    · rename_i below
      refine List.pairwise_cons.mpr ⟨fun other member => ?_, sorted⟩
      rcases List.mem_cons.mp member with rfl | later
      · exact below.le
      · exact consistent.trans _ _ _ here mine (others other later) below.le (least other later)
    · rename_i notBelow
      refine List.pairwise_cons.mpr ⟨fun other member => ?_, ih others tail⟩
      rcases List.mem_cons.mp ((placeBy_perm ..).mem_iff.mp member) with rfl | later
      · by_contra above
        exact notBelow ((consistent.lt_iff here mine).mpr (by omega))
      · exact least other later

theorem meets_list (cmp : κ → κ → Int) (key : α → κ) : Ordered.list.Meets cmp key := by
  have inserted : ∀ nodes sorted : List α,
      (nodes.foldl (fun sorted node => placeBy cmp key node sorted) sorted).Perm (nodes ++ sorted) := by
    intro nodes
    induction nodes with
    | nil => exact fun sorted => List.Perm.refl _
    | cons first rest ih =>
      intro sorted
      refine (ih _).trans (((placeBy_perm cmp key first sorted).append_left rest).trans ?_)
      exact List.perm_middle
  refine ⟨fun nodes _ => (inserted nodes []).trans (by rw [List.append_nil]), fun nodes consistent => ?_,
    fun _ _ _ => rfl⟩
  have kept : ∀ {keys : κ → Prop}, Consistent cmp keys → ∀ nodes sorted : List α,
      (∀ node ∈ nodes, keys (key node)) → (∀ node ∈ sorted, keys (key node)) →
      (sorted.Pairwise fun a b => cmp (key a) (key b) ≤ 0) →
      (nodes.foldl (fun sorted node => placeBy cmp key node sorted) sorted).Pairwise fun a b =>
        cmp (key a) (key b) ≤ 0 := by
    intro keys consistent nodes
    induction nodes with
    | nil => exact fun sorted _ _ pairs => pairs
    | cons first rest ih =>
      intro sorted known stored pairs
      obtain ⟨mine, others⟩ := List.forall_mem_cons.mp known
      refine ih _ others (fun node member => ?_) (placeBy_sorted consistent mine stored pairs)
      rcases List.mem_cons.mp ((placeBy_perm ..).mem_iff.mp member) with rfl | old
      · exact mine
      · exact stored node old
  exact kept consistent nodes [] (fun node member => ⟨node, member, rfl⟩) (List.forall_mem_nil _)
    List.Pairwise.nil

end Ubus.Lib
