/-
**Ownership: counted references, linear tokens and separate owners.**

Three disciplines a program with manual memory management keeps.

* `Linear` — every token that was issued is at exactly one place or was closed, exactly once.
  `issue`, `move` and `close` are the three things that may happen to a token.
* `Separate` — every cell has at most one owner, and is in the owner's list once. `give`, `drop` and
  `move` are what may happen to a cell.
-/

import Mathlib.Algebra.Order.Ring.Int
import Mathlib.Data.List.Count
import Mathlib.Data.List.Nodup
import Mathlib.Logic.Function.Basic

set_option linter.unusedSectionVars false

namespace Ubus.Lib

/-! ### Counted references -/

section Counted

variable {κ α : Type} [DecidableEq κ] [DecidableEq α]

theorem count_flatMap_update {owners : List κ} (nodup : owners.Nodup) {owner : κ}
    (member : owner ∈ owners) (refs : κ → List α) (list : List α) (cell : α) :
    (owners.flatMap (Function.update refs owner list)).count cell + (refs owner).count cell =
      (owners.flatMap refs).count cell + list.count cell := by
  induction owners with
  | nil => cases member
  | cons first rest ih =>
    obtain ⟨notIn, restNodup⟩ := List.nodup_cons.mp nodup
    rw [List.flatMap_cons, List.flatMap_cons, List.count_append, List.count_append]
    rcases List.mem_cons.mp member with rfl | member
    · have same : rest.flatMap (Function.update refs owner list) = rest.flatMap refs := by
        refine List.flatMap_congr fun other inRest => ?_
        exact Function.update_of_ne (fun equal : other = owner => notIn (equal ▸ inRest)) _ _
      rw [same, Function.update_self]
      omega
    · have differs : first ≠ owner := fun equal => notIn (equal ▸ member)
      have rest' := ih restNodup member
      rw [Function.update_of_ne differs]
      omega

/-- **Every cell is referenced as often as its counter says.** -/
structure Counted (held : List α) (owners : List κ) (refs : κ → List α) (weight : α → Nat) :
    Prop where
  nodup : owners.Nodup
  count : ∀ cell, held.count cell + (owners.flatMap refs).count cell = weight cell

namespace Counted

variable {held : List α} {owners : List κ} {refs : κ → List α} {weight : α → Nat}

theorem congr (counted : Counted held owners refs weight) {refs' : κ → List α} {weight' : α → Nat}
    (sameRefs : ∀ owner ∈ owners, refs' owner = refs owner)
    (sameWeight : ∀ cell, weight' cell = weight cell) : Counted held owners refs' weight' := by
  refine ⟨counted.nodup, fun cell => ?_⟩
  rw [List.flatMap_congr sameRefs, sameWeight, counted.count]

theorem pos_of_held (counted : Counted held owners refs weight) {cell : α} (member : cell ∈ held) :
    0 < weight cell := by
  have count := counted.count cell
  have held' := List.count_pos_iff.mpr member
  omega

theorem pos_of_stored (counted : Counted held owners refs weight) {owner : κ} {cell : α}
    (known : owner ∈ owners) (member : cell ∈ refs owner) : 0 < weight cell := by
  have count := counted.count cell
  have stored := List.count_pos_iff.mpr (List.mem_flatMap.mpr ⟨owner, known, member⟩)
  omega

theorem acquire (counted : Counted held owners refs weight) (cell : α) {weight' : α → Nat}
    (more : weight' cell = weight cell + 1)
    (others : ∀ other, other ≠ cell → weight' other = weight other) :
    Counted (cell :: held) owners refs weight' := by
  refine ⟨counted.nodup, fun other => ?_⟩
  have count := counted.count other
  rw [List.count_cons]
  by_cases same : other = cell
  · subst same
    simp only [beq_self_eq_true, if_true]
    omega
  · have differs : (cell == other) = false := by simpa using fun equal => same equal.symm
    rw [differs, others other same]
    simpa using count

theorem release {cell : α} (counted : Counted (cell :: held) owners refs weight)
    {weight' : α → Nat} (less : weight' cell + 1 = weight cell)
    (others : ∀ other, other ≠ cell → weight' other = weight other) :
    Counted held owners refs weight' := by
  refine ⟨counted.nodup, fun other => ?_⟩
  have count := counted.count other
  rw [List.count_cons] at count
  by_cases same : other = cell
  · subst same
    simp only [beq_self_eq_true, if_true] at count
    omega
  · have differs : (cell == other) = false := by simpa using fun equal => same equal.symm
    rw [differs] at count
    rw [others other same]
    simpa using count

theorem stow {cell : α} (counted : Counted (cell :: held) owners refs weight) {owner : κ}
    (known : owner ∈ owners) {list : List α} (added : list.Perm (cell :: refs owner)) :
    Counted held owners (Function.update refs owner list) weight := by
  refine ⟨counted.nodup, fun other => ?_⟩
  have count := counted.count other
  have change := count_flatMap_update counted.nodup known refs list other
  have listed := added.count_eq other
  rw [List.count_cons] at count listed
  omega

theorem fetch {cell : α} (counted : Counted held owners refs weight) {owner : κ}
    (known : owner ∈ owners) {list : List α} (taken : (refs owner).Perm (cell :: list)) :
    Counted (cell :: held) owners (Function.update refs owner list) weight := by
  refine ⟨counted.nodup, fun other => ?_⟩
  have count := counted.count other
  have change := count_flatMap_update counted.nodup known refs list other
  have listed := taken.count_eq other
  rw [List.count_cons] at listed ⊢
  omega

theorem enlist {stored : List α} (counted : Counted (stored ++ held) owners refs weight) {owner : κ}
    (fresh : owner ∉ owners) (list : refs owner = stored) :
    Counted held (owner :: owners) refs weight := by
  refine ⟨List.nodup_cons.mpr ⟨fresh, counted.nodup⟩, fun cell => ?_⟩
  have count := counted.count cell
  rw [List.count_append] at count
  rw [List.flatMap_cons, List.count_append, list]
  omega

theorem dismiss (counted : Counted held owners refs weight) {owner : κ} (none : refs owner = []) :
    Counted held (owners.erase owner) refs weight := by
  refine ⟨counted.nodup.erase owner, fun cell => ?_⟩
  have count := counted.count cell
  by_cases member : owner ∈ owners
  · have listed := ((List.perm_cons_erase member).flatMap_right refs).count_eq cell
    rw [List.flatMap_cons, none, List.nil_append] at listed
    omega
  · rwa [List.erase_of_not_mem member]

end Counted

end Counted

/-! ### Linear tokens -/

section Linear

variable {π τ : Type}

/-- **Every issued token is at exactly one place, or was closed exactly once.** -/
structure Linear (place : π → Option τ) (closed : List τ) (issued : τ → Prop) : Prop where
  unique : ∀ {p q : π} {token : τ}, place p = some token → place q = some token → p = q
  fresh : ∀ {p : π} {token : τ}, place p = some token → token ∉ closed
  nodup : closed.Nodup
  kept : ∀ {token : τ}, issued token → token ∈ closed ∨ ∃ p, place p = some token
  placed : ∀ {p : π} {token : τ}, place p = some token → issued token
  closedIssued : ∀ {token : τ}, token ∈ closed → issued token

namespace Linear

variable {place place' : π → Option τ} {closed : List τ} {issued : τ → Prop}

theorem congr (linear : Linear place closed issued) (same : ∀ p, place' p = place p) :
    Linear place' closed issued := by
  rwa [show place' = place from funext same]

theorem start (empty : ∀ p, place p = none) (none : ∀ token, ¬ issued token) :
    Linear place [] issued where
  unique := fun found _ => by rw [empty] at found; cases found
  fresh := fun _ => List.not_mem_nil
  nodup := List.nodup_nil
  kept := fun isIssued => absurd isIssued (none _)
  placed := fun found => by rw [empty] at found; cases found
  closedIssued := fun member => absurd member List.not_mem_nil

theorem issue (linear : Linear place closed issued) {p : π} {token : τ} (new : ¬ issued token)
    (empty : place p = none) (here : place' p = some token)
    (others : ∀ q, q ≠ p → place' q = place q) {issued' : τ → Prop}
    (more : ∀ other, issued' other ↔ issued other ∨ other = token) :
    Linear place' closed issued' := by
  have at' : ∀ {q : π} {other : τ}, place' q = some other →
      (q = p ∧ other = token) ∨ (q ≠ p ∧ place q = some other) := by
    intro q other found
    by_cases same : q = p
    · subst same
      rw [here] at found
      exact Or.inl ⟨rfl, (Option.some.inj found).symm⟩
    · exact Or.inr ⟨same, (others q same) ▸ found⟩
  refine ⟨?_, ?_, linear.nodup, ?_, ?_, ?_⟩
  · intro q r other first second
    rcases at' first with ⟨rfl, rfl⟩ | ⟨_, old⟩ <;> rcases at' second with ⟨rfl, same⟩ | ⟨_, old'⟩
    · rfl
    · exact absurd (linear.placed old') new
    · exact absurd (linear.placed (same ▸ old)) new
    · exact linear.unique old old'
  · intro q other found inClosed
    rcases at' found with ⟨-, rfl⟩ | ⟨_, old⟩
    · exact new (linear.closedIssued inClosed)
    · exact linear.fresh old inClosed
  · intro other isIssued
    rcases (more other).mp isIssued with old | rfl
    · rcases linear.kept old with inClosed | ⟨q, found⟩
      · exact Or.inl inClosed
      · have differs : q ≠ p := fun same => by rw [same, empty] at found; cases found
        exact Or.inr ⟨q, (others q differs).trans found⟩
    · exact Or.inr ⟨p, here⟩
  · intro q other found
    rcases at' found with ⟨-, rfl⟩ | ⟨_, old⟩
    · exact (more other).mpr (Or.inr rfl)
    · exact (more other).mpr (Or.inl (linear.placed old))
  · intro other inClosed
    exact (more other).mpr (Or.inl (linear.closedIssued inClosed))

theorem move (linear : Linear place closed issued) {p q : π} (differ : p ≠ q)
    (empty : place q = none) (gone : place' p = none) (here : place' q = place p)
    (others : ∀ r, r ≠ p → r ≠ q → place' r = place r) : Linear place' closed issued := by
  have back : ∀ {r : π} {token : τ}, place' r = some token →
      (r = q ∧ place p = some token) ∨ (r ≠ q ∧ r ≠ p ∧ place r = some token) := by
    intro r token found
    by_cases atQ : r = q
    · subst atQ
      exact Or.inl ⟨rfl, here ▸ found⟩
    by_cases atP : r = p
    · subst atP
      rw [gone] at found
      cases found
    · exact Or.inr ⟨atQ, atP, (others r atP atQ) ▸ found⟩
  refine ⟨?_, ?_, linear.nodup, ?_, ?_, linear.closedIssued⟩
  · intro r r' token first second
    rcases back first with ⟨rfl, old⟩ | ⟨_, notP, old⟩ <;>
      rcases back second with ⟨rfl, old'⟩ | ⟨_, notP', old'⟩
    · rfl
    · exact absurd (linear.unique old old').symm notP'
    · exact absurd (linear.unique old old') notP
    · exact linear.unique old old'
  · intro r token found
    rcases back found with ⟨-, old⟩ | ⟨_, _, old⟩
    · exact linear.fresh old
    · exact linear.fresh old
  · intro token isIssued
    rcases linear.kept isIssued with inClosed | ⟨r, found⟩
    · exact Or.inl inClosed
    by_cases atP : r = p
    · subst atP
      exact Or.inr ⟨q, here.trans found⟩
    · have notQ : r ≠ q := fun same => by rw [same, empty] at found; cases found
      exact Or.inr ⟨r, (others r atP notQ).trans found⟩
  · intro r token found
    rcases back found with ⟨-, old⟩ | ⟨_, _, old⟩
    · exact linear.placed old
    · exact linear.placed old

theorem close (linear : Linear place closed issued) {p : π} (gone : place' p = none)
    (others : ∀ q, q ≠ p → place' q = place q) :
    Linear place' ((place p).toList ++ closed) issued := by
  have back : ∀ {q : π} {token : τ}, place' q = some token → q ≠ p ∧ place q = some token := by
    intro q token found
    by_cases same : q = p
    · subst same
      rw [gone] at found
      cases found
    · exact ⟨same, (others q same) ▸ found⟩
  refine ⟨?_, ?_, ?_, ?_, ?_, ?_⟩
  · intro q r token first second
    exact linear.unique (back first).2 (back second).2
  · intro q token found
    obtain ⟨differs, old⟩ := back found
    rw [List.mem_append, Option.mem_toList]
    rintro (here | inClosed)
    · exact differs (linear.unique old here)
    · exact linear.fresh old inClosed
  · cases here : place p with
    | none => simpa using linear.nodup
    | some token => simpa using ⟨linear.fresh here, linear.nodup⟩
  · intro token isIssued
    rcases linear.kept isIssued with inClosed | ⟨q, found⟩
    · exact Or.inl (List.mem_append_right _ inClosed)
    by_cases same : q = p
    · subst same
      exact Or.inl (List.mem_append_left _ (by simpa using found))
    · exact Or.inr ⟨q, (others q same).trans found⟩
  · intro q token found
    exact linear.placed (back found).2
  · intro token member
    rcases List.mem_append.mp member with here | inClosed
    · exact linear.placed (Option.mem_toList.mp here)
    · exact linear.closedIssued inClosed

end Linear

end Linear

/-! ### Separate owners -/

section Separate

variable {ο α : Type}

/-- **Every cell is in at most one list, and there once.** -/
structure Separate (owns : ο → List α) : Prop where
  nodup : ∀ owner, (owns owner).Nodup
  unique : ∀ {owner owner' : ο} {cell : α}, cell ∈ owns owner → cell ∈ owns owner' → owner = owner'

namespace Separate

variable {owns owns' : ο → List α}

theorem mono (separate : Separate owns) (sub : ∀ owner, (owns' owner).Subperm (owns owner)) :
    Separate owns' where
  nodup owner := by
    obtain ⟨list, perm, sublist⟩ := sub owner
    exact perm.nodup_iff.mp ((separate.nodup owner).sublist sublist)
  unique mine other := separate.unique ((sub _).subset mine) ((sub _).subset other)

theorem give (separate : Separate owns) {cell : α} (fresh : ∀ owner, cell ∉ owns owner) {owner : ο}
    (here : (owns' owner).Perm (cell :: owns owner))
    (others : ∀ other, other ≠ owner → owns' other = owns other) : Separate owns' := by
  have back : ∀ {other : ο} {x : α}, x ∈ owns' other →
      (other = owner ∧ x = cell) ∨ x ∈ owns other := by
    intro other x mem
    by_cases same : other = owner
    · subst same
      rcases List.mem_cons.mp (here.mem_iff.mp mem) with rfl | old
      · exact .inl ⟨rfl, rfl⟩
      · exact .inr old
    · exact .inr (others other same ▸ mem)
  constructor
  · intro other
    by_cases same : other = owner
    · subst same
      exact here.nodup_iff.mpr (List.nodup_cons.mpr ⟨fresh other, separate.nodup other⟩)
    · rw [others other same]
      exact separate.nodup other
  · intro first second x mine other
    rcases back mine with ⟨rfl, rfl⟩ | old
    · rcases back other with ⟨rfl, -⟩ | old'
      · rfl
      · exact absurd old' (fresh second)
    · rcases back other with ⟨rfl, rfl⟩ | old'
      · exact absurd old (fresh first)
      · exact separate.unique old old'

theorem drop (separate : Separate owns) {cell : α} {owner : ο}
    (here : (owns owner).Perm (cell :: owns' owner))
    (others : ∀ other, other ≠ owner → owns' other = owns other) :
    Separate owns' ∧ ∀ other, cell ∉ owns' other := by
  have sub : ∀ other, (owns' other).Subperm (owns other) := by
    intro other
    by_cases same : other = owner
    · subst same
      exact (List.sublist_cons_self ..).subperm.trans here.symm.subperm
    · rw [others other same]
  refine ⟨separate.mono sub, fun other mem => ?_⟩
  have mine : cell ∈ owns owner := here.mem_iff.mpr List.mem_cons_self
  obtain rfl := separate.unique mine ((sub other).subset mem)
  exact (List.nodup_cons.mp (here.nodup_iff.mp (separate.nodup owner))).1 mem

theorem move (separate : Separate owns) {cell : α} {source target : ο} (differ : source ≠ target)
    (gone : (owns source).Perm (cell :: owns' source))
    (here : (owns' target).Perm (cell :: owns target))
    (others : ∀ other, other ≠ source → other ≠ target → owns' other = owns other) :
    Separate owns' := by
  classical
  have gone' : (owns source).Perm (cell :: Function.update owns source (owns' source) source) := by
    rw [Function.update_self]
    exact gone
  have here' : (owns' target).Perm (cell :: Function.update owns source (owns' source) target) := by
    rw [Function.update_of_ne differ.symm]
    exact here
  obtain ⟨dropped, free⟩ : Separate (Function.update owns source (owns' source)) ∧
      ∀ other, cell ∉ Function.update owns source (owns' source) other :=
    separate.drop gone' fun other differs => Function.update_of_ne differs _ _
  refine dropped.give free here' fun other differs => ?_
  by_cases same : other = source
  · subst same
    rw [Function.update_self]
  · rw [Function.update_of_ne same, others other same differs]

end Separate

end Separate

end Ubus.Lib
