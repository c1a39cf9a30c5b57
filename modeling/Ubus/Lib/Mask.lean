/-
**A word as a set of slots.**

Slot `i` belongs to the set when bit `i` of the word is set.

* `getLsbD_clear`, `getLsbD_insert`: the updates with a shifted one.
* `firstSlot`: the loop that shifts the word out from its lowest bit and stops at a slot with a
  property. `firstSlot_eq_some`: it finds the first such slot.
-/

import Mathlib.Algebra.Order.Ring.Int
import Mathlib.Order.Basic

namespace Ubus.Lib

variable {w : Nat}
variable {i fuel : Nat} {p : Nat → Bool}

theorem getLsbD_bit (i j : Nat) : (1#w <<< i).getLsbD j = decide (j < w ∧ j = i) := by
  rw [BitVec.getLsbD_shiftLeft, BitVec.getLsbD_one]
  grind

theorem getLsbD_clear (x : BitVec w) (i j : Nat) :
    (x &&& ~~~(1#w <<< i)).getLsbD j = (x.getLsbD j && decide (j ≠ i)) := by
  rw [BitVec.getLsbD_and, BitVec.getLsbD_not, getLsbD_bit]
  by_cases inside : j < w
  · simp [inside]
  · simp [BitVec.getLsbD_of_ge x j (Nat.le_of_not_lt inside)]

theorem getLsbD_insert (x : BitVec w) (inside : i < w) (j : Nat) :
    (x ||| 1#w <<< i).getLsbD j = (x.getLsbD j || decide (j = i)) := by
  rw [BitVec.getLsbD_or, getLsbD_bit]
  congr 1
  grind

theorem eq_zero_iff_getLsbD (x : BitVec w) : x = 0 ↔ ∀ i, x.getLsbD i = false := by
  constructor
  · rintro rfl i
    exact BitVec.getLsbD_zero
  intro clear
  refine BitVec.eq_of_getLsbD_eq fun i _ => ?_
  rw [clear i]
  exact BitVec.getLsbD_zero.symm

/-- The loop from slot `i` on, with the bits from there on in `x`. -/
def firstSlot (p : Nat → Bool) : Nat → Nat → BitVec w → Option Nat
  | 0, _, _ => none
  | fuel + 1, i, x =>
    if x = 0 then none
    else if x.getLsbD 0 && p i then some i
    else firstSlot p fuel (i + 1) (x >>> 1)

theorem getLsbD_shift_out (x : BitVec w) {k : Nat} (after : i < k) :
    (x >>> 1).getLsbD (k - (i + 1)) = x.getLsbD (k - i) := by
  rw [BitVec.getLsbD_ushiftRight]
  congr 1
  omega

theorem firstSlot_some {j : Nat} {x : BitVec w} (found : firstSlot p fuel i x = some j) :
    i ≤ j ∧ x.getLsbD (j - i) = true ∧ p j = true ∧
      ∀ k, i ≤ k → k < j → x.getLsbD (k - i) = true → p k = false := by
  induction fuel generalizing i x with
  | zero => cases found
  | succ fuel ih =>
    unfold firstSlot at found
    split at found
    · cases found
    split at found
    · rename_i here
      cases found
      obtain ⟨bit, holds⟩ := Bool.and_eq_true_iff.mp here
      rw [Nat.sub_self]
      exact ⟨Nat.le_refl _, bit, holds, fun k from_ below => absurd from_ (Nat.not_le_of_lt below)⟩
    · rename_i elsewhere
      obtain ⟨after, bit, holds, first⟩ := ih found
      rw [getLsbD_shift_out x after] at bit
      refine ⟨Nat.le_of_lt after, bit, holds, fun k from_ below set => ?_⟩
      rcases Nat.eq_or_lt_of_le from_ with rfl | beyond
      · rw [Nat.sub_self] at set
        simpa [set] using elsewhere
      · rw [← getLsbD_shift_out x beyond] at set
        exact first k beyond below set

theorem firstSlot_none {x : BitVec w} (missing : firstSlot p fuel i x = none) :
    ∀ k, i ≤ k → k < i + fuel → x.getLsbD (k - i) = true → p k = false := by
  induction fuel generalizing i x with
  | zero =>
    intro k from_ below
    omega
  | succ fuel ih =>
    intro k from_ below set
    unfold firstSlot at missing
    split at missing
    · rename_i empty
      rw [(eq_zero_iff_getLsbD x).mp empty] at set
      cases set
    split at missing
    · cases missing
    rename_i elsewhere
    rcases Nat.eq_or_lt_of_le from_ with rfl | beyond
    · rw [Nat.sub_self] at set
      simpa [set] using elsewhere
    · rw [← getLsbD_shift_out x beyond] at set
      exact ih missing k beyond (by omega) set

/-- **The loop finds the first slot of the set with the property.** -/
theorem firstSlot_eq_some {x : BitVec w} :
    firstSlot p w 0 x = some i ↔
      x.getLsbD i = true ∧ p i = true ∧ ∀ k < i, x.getLsbD k = true → p k = false := by
  constructor
  · intro found
    obtain ⟨-, bit, holds, first⟩ := firstSlot_some found
    exact ⟨bit, holds, fun k => first k (Nat.zero_le k)⟩
  · rintro ⟨bit, holds, first⟩
    cases found : firstSlot p w 0 x with
    | none =>
      have inside : i < w := BitVec.lt_of_getLsbD bit
      rw [firstSlot_none found i (Nat.zero_le i) (by omega) bit] at holds
      cases holds
    | some j =>
      obtain ⟨-, bit', holds', first'⟩ := firstSlot_some found
      rcases Nat.lt_trichotomy i j with before | rfl | after
      · rw [first' i (Nat.zero_le i) before bit] at holds
        cases holds
      · rfl
      · rw [first j after bit'] at holds'
        cases holds'

end Ubus.Lib
