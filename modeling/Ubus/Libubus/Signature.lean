/-
**The signature of an object type** (`ubus_push_method_data`, `ubus_push_object_type` of
`libubus-obj.c`).

A method is published as a table of its policy entries. With a mask only some of them are: entry `i`
is tested with `m->mask & (1 << i)`, where `1 << i` has the type `int`, 32 bits wide, and is converted
to the 64 bits of the mask by its sign. C leaves a shift by 32 or more undefined, so what it gives is
a parameter (`Target`).

* `tests_low`: below 31 the test is the one for bit `i`.
* `tests_sign`: at 31 the tested word has all bits from 31 on.
-/

import Ubus.Lib.Mask
import Ubus.Msg

namespace Ubus.Libubus

open Lib

variable {mask : BitVec 64} {i : Nat} {m : Method} {p q : Nat → Bool} {policy : List Policy}

/-! ### The code -/

/-- `struct blobmsg_policy`. -/
structure Policy where
  name : CString
  type : UInt32
deriving DecidableEq, Repr

/-- `struct ubus_method`, as far as it is published; `n_policy` is the length of `policy`. -/
structure Method where
  name : CString
  mask : BitVec 64 := 0#64
  policy : List Policy := []

/-- `struct ubus_object_type`, as far as it is published. -/
structure ObjectType where
  methods : List Method := []

/-- What `blobmsg_open_table`, the `blobmsg_add_u32` after it and `blobmsg_close_table` put into a
message. -/
structure Table where
  name : CString
  fields : List (CString × UInt32)
deriving DecidableEq, Repr

/-- The value of `1 << i` for every `i`; a shift into the sign bit gives the least `int`. -/
structure Target where
  shl : Nat → BitVec 32
  defined : ∀ i < 32, shl i = 1#32 <<< i

/-- `m->mask && !(m->mask & (1 << i))`. -/
def Target.skips (target : Target) (mask : BitVec 64) (i : Nat) : Bool :=
  mask != 0#64 && (mask &&& (target.shl i).signExtend 64) == 0#64

/-- The loop of `ubus_push_method_data` from entry `i` on. -/
def pushPolicy (target : Target) (mask : BitVec 64) : Nat → List Policy → List (CString × UInt32)
  | _, [] => []
  | i, policy :: rest =>
    if target.skips mask i then pushPolicy target mask (i + 1) rest
    else (policy.name, policy.type) :: pushPolicy target mask (i + 1) rest

/-- `ubus_push_method_data`. -/
def ubusPushMethodData (target : Target) (m : Method) : Table :=
  ⟨m.name, pushPolicy target m.mask 0 m.policy⟩

/-- `ubus_push_object_type`: the tables in the `SIGNATURE` attribute. -/
def ubusPushObjectType (target : Target) (type : ObjectType) : List Table :=
  type.methods.map (ubusPushMethodData target)

/-! ### What should be published -/

/-- An entry is published if there is no mask, or its bit is set. -/
def Method.lists (m : Method) (i : Nat) : Bool := m.mask == 0#64 || m.mask.getLsbD i

/-- The entries with a property of their index, in order. -/
def select (p : Nat → Bool) (policy : List Policy) : List (CString × UInt32) :=
  (policy.zipIdx.filter fun entry => p entry.2).map fun entry => (entry.1.name, entry.1.type)

def Method.table (m : Method) : Table := ⟨m.name, select m.lists m.policy⟩

/-! ### Selecting entries -/

theorem pushPolicy_eq (target : Target) (mask : BitVec 64) (i : Nat) (policy : List Policy) :
    pushPolicy target mask i policy =
      ((policy.zipIdx i).filter fun entry => !target.skips mask entry.2).map fun entry =>
        (entry.1.name, entry.1.type) := by
  induction policy generalizing i with
  | nil => rfl
  | cons first rest ih =>
    rw [pushPolicy, List.zipIdx_cons, List.filter_cons, ih]
    cases target.skips mask i <;> rfl

theorem pushMethodData_eq (target : Target) (m : Method) :
    ubusPushMethodData target m = ⟨m.name, select (fun i => !target.skips m.mask i) m.policy⟩ := by
  rw [ubusPushMethodData, pushPolicy_eq]
  rfl

theorem select_congr (same : ∀ i < policy.length, p i = q i) :
    select p policy = select q policy := by
  unfold select
  congr 1
  refine List.filter_congr fun entry mem => ?_
  exact same _ (List.snd_lt_of_mem_zipIdx mem)

theorem select_ne (fewer : ∀ i, q i = true → p i = true) (inside : i < policy.length)
    (more : p i = true) (less : q i = false) : select p policy ≠ select q policy := by
  intro same
  have lengths := congrArg List.length same
  have nested : policy.zipIdx.filter (fun entry => q entry.2) =
      (policy.zipIdx.filter fun entry => p entry.2).filter fun entry => q entry.2 := by
    rw [List.filter_filter]
    refine List.filter_congr fun entry _ => ?_
    cases chosen : q entry.2 with
    | false => rfl
    | true => rw [fewer _ chosen]; rfl
  have here : (policy[i], i) ∈ policy.zipIdx.filter fun entry => p entry.2 :=
    List.mem_filter.mpr ⟨List.mem_zipIdx_iff_getElem?.mpr (List.getElem?_eq_getElem inside), more⟩
  have shorter : ((policy.zipIdx.filter fun entry => p entry.2).filter fun entry => q entry.2).length <
      (policy.zipIdx.filter fun entry => p entry.2).length :=
    List.length_filter_lt_length_iff_exists.mpr ⟨_, here, by simp [less]⟩
  rw [select, select, List.length_map, List.length_map, nested] at lengths
  exact absurd lengths.symm shorter.ne

/-! ### The tested word -/

theorem getLsbD_extended (i j : Nat) (low : i < 32) :
    ((1#32 <<< i).signExtend 64).getLsbD j = decide (j < 64 ∧ (j = i ∨ i = 31 ∧ 31 ≤ j)) := by
  rw [BitVec.getLsbD_signExtend, BitVec.msb_eq_getLsbD_last, getLsbD_bit, getLsbD_bit]
  split <;> grind

theorem tests_low (target : Target) (masked : mask ≠ 0#64) (low : i < 31) :
    (!target.skips mask i) = mask.getLsbD i := by
  have tested : (mask &&& (target.shl i).signExtend 64) = 0#64 ↔ mask.getLsbD i = false := by
    rw [target.defined i (by omega)]
    refine (eq_zero_iff_getLsbD _).trans ?_
    constructor
    · intro clear
      have bit := clear i
      rw [BitVec.getLsbD_and, getLsbD_extended i i (by omega)] at bit
      simpa [show i < 64 by omega] using bit
    · intro clear j
      rw [BitVec.getLsbD_and, getLsbD_extended i j (by omega)]
      by_cases same : j = i
      · rw [same, clear]
        rfl
      · simp [same, low.ne]
  unfold Target.skips
  cases bit : mask.getLsbD i with
  | false => simp [masked, tested.mpr bit]
  | true =>
    have set : (mask &&& (target.shl i).signExtend 64) ≠ 0#64 := fun zero => by
      rw [tested.mp zero] at bit
      cases bit
    simp [set]

theorem tests_sign (target : Target) (masked : mask ≠ 0#64) :
    (!target.skips mask 31) = true ↔ ∃ j, 31 ≤ j ∧ mask.getLsbD j = true := by
  have tested : (mask &&& (target.shl 31).signExtend 64) = 0#64 ↔
      ∀ j, 31 ≤ j → mask.getLsbD j = false := by
    rw [target.defined 31 (by omega)]
    refine (eq_zero_iff_getLsbD _).trans (forall_congr' fun j => ?_)
    rw [BitVec.getLsbD_and, getLsbD_extended 31 j (by omega)]
    by_cases inside : j < 64
    · by_cases high : 31 ≤ j
      · simp [inside, high]
      · simp [high, show j ≠ 31 by omega]
    · rw [BitVec.getLsbD_of_ge mask j (by omega)]
      simp
  unfold Target.skips
  rw [← not_iff_not]
  simp only [masked, bne_iff_ne, ne_eq, not_false_eq_true, Bool.and_eq_true, beq_iff_eq, Bool.not_eq_true,
    Bool.not_eq_false', tested, not_exists, not_and, true_and]

/-! ### Which signatures are right -/

theorem toNat_lt_iff (mask : BitVec 64) :
    mask.toNat < 2 ^ 31 ↔ ∀ j, 31 ≤ j → mask.getLsbD j = false := by
  constructor
  · intro small j high
    exact Nat.testBit_lt_two_pow (small.trans_le (Nat.pow_le_pow_right (by omega) high))
  · exact Nat.lt_pow_two_of_testBit _

/-- What decides whether a method is published as it should be. -/
def Method.Fits (m : Method) : Prop :=
  m.mask = 0#64 ∨ m.policy.length ≤ 31 ∨
    m.policy.length = 32 ∧ (m.mask.getLsbD 31 = true ∨ m.mask.toNat < 2 ^ 31)

theorem tests_sign_eq (target : Target) (masked : mask ≠ 0#64)
    (fits : mask.getLsbD 31 = true ∨ mask.toNat < 2 ^ 31) :
    (!target.skips mask 31) = mask.getLsbD 31 := by
  rcases fits with set | small
  · rw [set]
    exact (tests_sign target masked).mpr ⟨31, le_rfl, set⟩
  have clear := (toNat_lt_iff mask).mp small
  rw [clear 31 le_rfl, ← Bool.not_eq_true, tests_sign target masked]
  rintro ⟨j, high, set⟩
  rw [clear j high] at set
  cases set

theorem pushMethodData_table (target : Target) (fits : m.Fits) :
    ubusPushMethodData target m = m.table := by
  rw [pushMethodData_eq, Method.table]
  congr 1
  refine select_congr fun i inside => ?_
  by_cases masked : m.mask = 0#64
  · simp [Target.skips, Method.lists, masked]
  have listed : m.lists i = m.mask.getLsbD i := by simp [Method.lists, masked]
  rw [listed]
  rcases fits with none | few | ⟨length, sign⟩
  · exact absurd none masked
  · exact tests_low target masked (by omega)
  rcases Nat.lt_or_ge i 31 with low | high
  · exact tests_low target masked low
  · obtain rfl : i = 31 := by omega
    exact tests_sign_eq target masked sign

/-- A target on which the undefined shifts come out as wanted. -/
def Target.choose (tests : Nat → Bool) : Target where
  shl i := if i < 32 then 1#32 <<< i else if tests i then BitVec.allOnes 32 else 0#32
  defined _ low := if_pos low

theorem tests_choose (tests : Nat → Bool) (masked : mask ≠ 0#64) (high : 32 ≤ i) :
    (!(Target.choose tests).skips mask i) = tests i := by
  have ones : (BitVec.allOnes 32).signExtend 64 = BitVec.allOnes 64 := by decide
  have zeros : (0#32).signExtend 64 = 0#64 := by decide
  have chosen : (Target.choose tests).shl i = if tests i then BitVec.allOnes 32 else 0#32 :=
    if_neg (by omega)
  unfold Target.skips
  rw [chosen]
  cases tests i with
  | false => simp [zeros, masked]
  | true =>
    rw [if_pos rfl, ones, BitVec.and_allOnes]
    simp [masked]

theorem pushes_more (masked : m.mask ≠ 0#64) (many : 32 ≤ m.policy.length)
    (clear : m.mask.getLsbD 31 = false) (above : ¬ m.mask.toNat < 2 ^ 31) :
    ubusPushMethodData (.choose m.mask.getLsbD) m ≠ m.table := by
  have listed : m.lists = m.mask.getLsbD := by
    funext i
    simp [Method.lists, masked]
  have sign : (!(Target.choose m.mask.getLsbD).skips m.mask 31) = true := by
    rw [tests_sign _ masked]
    by_contra none
    refine above ((toNat_lt_iff _).mpr fun j high => ?_)
    rw [← Bool.not_eq_true]
    exact fun set => none ⟨j, high, set⟩
  intro same
  rw [pushMethodData_eq, Method.table, listed] at same
  refine select_ne (fun i set => ?_) (show 31 < m.policy.length by omega) sign clear
    (Table.mk.inj same).2
  rcases lt_trichotomy i 31 with low | rfl | high
  · rw [tests_low _ masked low, set]
  · exact sign
  · rw [tests_choose _ masked high, set]

theorem pushes_undefined (masked : m.mask ≠ 0#64) (many : 33 ≤ m.policy.length)
    (fits : m.mask.getLsbD 31 = true ∨ m.mask.toNat < 2 ^ 31) :
    ∃ target, ubusPushMethodData target m ≠ m.table := by
  have listed : m.lists = m.mask.getLsbD := by
    funext i
    simp [Method.lists, masked]
  refine ⟨.choose fun i => if i = 32 then !m.mask.getLsbD 32 else m.mask.getLsbD i, fun same => ?_⟩
  rw [pushMethodData_eq, Method.table, listed] at same
  have others : ∀ i, i ≠ 32 → (!(Target.choose fun i =>
      if i = 32 then !m.mask.getLsbD 32 else m.mask.getLsbD i).skips m.mask i) = m.mask.getLsbD i := by
    intro i differs
    rcases lt_trichotomy i 31 with low | rfl | high
    · exact tests_low _ masked low
    · exact tests_sign_eq _ masked fits
    · rw [tests_choose _ masked high, if_neg differs]
  have flipped := tests_choose (fun i => if i = 32 then !m.mask.getLsbD 32 else m.mask.getLsbD i)
    masked (le_refl 32)
  rw [if_pos rfl] at flipped
  cases bit : m.mask.getLsbD 32 with
  | false =>
    refine select_ne (fun i set => ?_) (show 32 < m.policy.length by omega) ?_ bit (Table.mk.inj same).2
    · rw [others i fun is => ?_, set]
      rw [is, bit] at set
      cases set
    · rw [flipped, bit]
      rfl
  | true =>
    refine select_ne (fun i set => ?_) (show 32 < m.policy.length by omega) bit ?_
      (Table.mk.inj same).2.symm
    · by_cases is : i = 32
      · rw [is, bit]
      · rw [← others i is, set]
    · rw [flipped, bit]
      rfl

/-- **When the published signature follows the masks**, on every target. -/
theorem signature_published_iff (type : ObjectType) :
    (∀ target, ubusPushObjectType target type = type.methods.map Method.table) ↔
      ∀ m ∈ type.methods, m.Fits := by
  constructor
  · intro published m member
    have right : ∀ target, ubusPushMethodData target m = m.table := fun target =>
      List.map_inj_left.mp (published target) m member
    by_contra misfit
    obtain ⟨masked, misfit⟩ := not_or.mp misfit
    obtain ⟨many, misfit⟩ := not_or.mp misfit
    by_cases sign : m.mask.getLsbD 31 = true ∨ m.mask.toNat < 2 ^ 31
    · have more : m.policy.length ≠ 32 := fun is => misfit ⟨is, sign⟩
      obtain ⟨target, wrong⟩ := pushes_undefined masked (by omega) sign
      exact wrong (right target)
    · obtain ⟨clear, above⟩ := not_or.mp sign
      exact pushes_more masked (by omega) (Bool.not_eq_true _ ▸ clear) above (right _)
  · intro fits target
    exact List.map_inj_left.mpr fun m member => pushMethodData_table target (fits m member)

/-- A method with 32 entries and a mask that has only bit 40. -/
def highMask : Method :=
  { name := cstr "m"
    mask := 1#64 <<< 40
    policy := List.replicate 32 ⟨cstr "p", 5⟩ }

/-- **Entry 31 is published although its bit is clear**, on every target. -/
theorem signature_sign_bit : highMask.mask.getLsbD 31 = false ∧ highMask.table.fields = [] ∧
    ∀ target, (ubusPushObjectType target ⟨[highMask]⟩).map Table.fields = [[(cstr "p", 5)]] := by
  refine ⟨by decide, by decide +kernel, fun target => ?_⟩
  have masked : highMask.mask ≠ 0#64 := by decide
  have chosen : ∀ i < highMask.policy.length, (!target.skips highMask.mask i) = decide (i = 31) := by
    intro i inside
    have low : i < 32 := inside
    rcases Nat.lt_or_ge i 31 with below | high
    · have clear : ∀ j < 31, highMask.mask.getLsbD j = false := by decide
      rw [tests_low target masked below, clear i below, decide_eq_false below.ne]
    · obtain rfl : i = 31 := by omega
      exact (tests_sign target masked).mpr ⟨40, by omega, by decide⟩
  show [(ubusPushMethodData target highMask).fields] = _
  rw [pushMethodData_eq, select_congr chosen]
  decide +kernel

end Ubus.Libubus
