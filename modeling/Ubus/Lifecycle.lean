/-
**Objects, types and clients come and go.**

* `good_objectType`, `good_newObject`, `good_insertPath`, `good_linkObject` — the steps in which
  `ubusd_create_object` makes an object.
* `good_dropObject` — the end of `ubusd_free_object`.
* `good_newClient`, `good_freeClientId` — clients.
-/

import Ubus.Integrity
import Ubus.Main

namespace Ubus

open Lib

/-! ### Types -/

section Types

variable {wip extra : Option Nat} {reg : Registry}

/-- **`ubus_alloc_id`** gives an id that is neither reserved nor in use. -/
theorem ubusAllocId_some {tree after : AvlTree UInt32} {addr : Nat} {id : UInt32}
    {rnd rest : List UInt32} (done : ubusAllocId tree addr rnd = (some (id, after), rest)) :
    ubusSystemObjectMax ≤ id ∧ after = tree.insert id addr ∧ ∀ node ∈ tree, node.1 ≠ id := by
  induction rnd with
  | nil => cases done
  | cons first others ih =>
    unfold ubusAllocId at done
    split at done
    · exact ih done
    rename_i notReserved
    split at done
    · exact ih done
    rename_i tree' inserted
    cases done
    obtain ⟨same, absent⟩ := AvlTree.insertNew_eq_some inserted
    exact ⟨not_lt.mp notReserved, same, absent⟩

theorem good_types (good : reg.Good wip extra) {extra' : Option Nat} {objTypes : AvlTree UInt32}
    {objType : Nat → ObjType} {brk : Nat} (more : reg.brk ≤ brk)
    (keyed : objTypes.Keyed (fun type => (objType type).id) brk)
    (ids : ∀ node ∈ objTypes, ubusSystemObjectMax ≤ node.1)
    (ok : Types extra' reg.objects objTypes reg.object objType) :
    Registry.Good wip extra' { reg with objTypes, objType, brk } where
  clients := good.clients.congr (fun _ _ => rfl) more
  objects := good.objects.congr (fun _ _ => rfl) more
  objTypes := keyed
  clientIds := good.clientIds
  typeIds := ids
  owners := good.owners
  types := ok
  paths := good.paths
  subs := good.subs.congr (fun _ => rfl) (fun _ => rfl) (fun _ _ => (·)) more
  patterns := good.patterns.congr (fun _ => rfl) (fun _ _ => (·)) more
  acl := good.acl

theorem good_getObjType (good : reg.Good wip none) (id : UInt32) :
    (ubusGetObjType id reg).2.Good wip (ubusGetObjType id reg).1 := by
  unfold ubusGetObjType
  split
  · exact good
  rename_i type found
  have has : reg.objTypes.Has type := (good.objTypes.find_iff.mp found).1
  refine good_types good le_rfl ?_ good.typeIds ⟨good.types.known, ?_, ?_, ?_⟩
  · exact good.objTypes.congr (fun other _ =>
      update_keeps ObjType.id reg.objType (by rfl) other) le_rfl
  · intro other same
    exact Option.some.inj same ▸ has
  · intro other hasOther
    rw [Function.update_apply]
    have count := good.types.refcount other hasOther
    split
    · rename_i same
      subst same
      simpa using count
    · rename_i differs
      have notSame : ¬ some type = some other := fun same => differs (Option.some.inj same).symm
      simpa [notSame] using count
  · intro other hasOther
    rw [Function.update_apply]
    split
    · exact Nat.succ_pos _
    · exact good.types.positive other hasOther

theorem good_newType (good : reg.Good wip none) {id : UInt32}
    (absent : ∀ node ∈ reg.objTypes, node.1 ≠ id) (range : ubusSystemObjectMax ≤ id)
    (methods : List Bytes) :
    Registry.Good wip (some reg.brk) { reg with
      objTypes := reg.objTypes.insert id reg.brk
      objType := Function.update reg.objType reg.brk { id, refcount := 1, methods }
      brk := reg.brk + 1 } := by
  have notIn : ¬ reg.objTypes.Has reg.brk := fun has =>
    absurd (good.objTypes.lt_of_has has) (lt_irrefl _)
  have old : ∀ type, reg.objTypes.Has type → type ≠ reg.brk := fun type has same => notIn (same ▸ has)
  have unused : typeUses reg.objects reg.object reg.brk = 0 := by
    rw [typeUses, List.countP_eq_zero]
    intro node member ofType
    exact notIn (good.types.known node.2 _ (AvlTree.has_of_mem member) (by simpa using ofType))
  refine good_types good (Nat.le_succ _) ?_ ?_ ⟨?_, ?_, ?_, ?_⟩
  · refine good.objTypes.insert le_rfl absent ?_ ?_ (Nat.lt_succ_self _)
    · rw [Function.update_self]
    · intro other has
      rw [Function.update_of_ne (old other has)]
  · intro node member
    rcases AvlTree.mem_insert.mp member with rfl | member
    · exact range
    · exact good.typeIds node member
  · intro obj type has ofType
    exact AvlTree.has_insert.mpr (Or.inr (good.types.known obj type has ofType))
  · intro type same
    exact AvlTree.has_insert.mpr (Or.inl (Option.some.inj same).symm)
  · intro type has
    rcases AvlTree.has_insert.mp has with rfl | has
    · rw [Function.update_self, unused, if_pos rfl]
    have notSame : ¬ some reg.brk = some type := fun same =>
      old type has (Option.some.inj same).symm
    rw [Function.update_of_ne (old type has), if_neg notSame]
    simpa using good.types.refcount type has
  · intro type has
    rcases AvlTree.has_insert.mp has with rfl | has
    · rw [Function.update_self]
      exact Nat.one_pos
    · rw [Function.update_of_ne (old type has)]
      exact good.types.positive type has

theorem good_unref {type : Nat} (good : reg.Good wip (some type)) :
    (ubusUnrefObjectType type reg).Good wip none := by
  have has : reg.objTypes.Has type := good.types.held type rfl
  have count := good.types.refcount type has
  rw [if_pos rfl] at count
  have others : ∀ other, other ≠ type → Function.update reg.objType type
      { reg.objType type with refcount := (reg.objType type).refcount - 1 } other =
      reg.objType other := fun other differs => Function.update_of_ne differs _ _
  have keyed : ∀ other, reg.objTypes.Has other → (Function.update reg.objType type
      { reg.objType type with refcount := (reg.objType type).refcount - 1 } other).id =
      (reg.objType other).id := fun other _ =>
        update_keeps ObjType.id reg.objType (by rfl) other
  have plain : ∀ other, reg.objTypes.Has other → other ≠ type → (reg.objType other).refcount =
      typeUses reg.objects reg.object other := by
    intro other hasOther differs
    have notSame : ¬ some type = some other := fun same => differs (Option.some.inj same).symm
    simpa [notSame] using good.types.refcount other hasOther
  unfold ubusUnrefObjectType
  simp only [Registry.mapObjType, Function.update_self]
  split
  · rename_i stays
    refine good_types good le_rfl (good.objTypes.congr keyed le_rfl) good.typeIds
      ⟨good.types.known, (fun _ same => by cases same), ?_, ?_⟩
    · intro other hasOther
      by_cases same : other = type
      · subst same
        rw [Function.update_self]
        simp only [reduceCtorEq, if_false]
        omega
      · rw [others other same, plain other hasOther same]
        simp
    · intro other hasOther
      by_cases same : other = type
      · subst same
        rw [Function.update_self]
        exact stays
      · rw [others other same]
        exact good.types.positive other hasOther
  · rename_i gone
    have unused : typeUses reg.objects reg.object type = 0 := by omega
    refine good_types good le_rfl ((good.objTypes.delete type).congr (fun other hasOther =>
      keyed other (AvlTree.has_delete.mp hasOther).1) le_rfl)
      (fun node member => good.typeIds node (AvlTree.mem_delete.mp member).1)
      ⟨?_, (fun _ same => by cases same), ?_, ?_⟩
    · intro obj other hasObj ofType
      refine AvlTree.has_delete.mpr ⟨good.types.known obj other hasObj ofType, ?_⟩
      rintro rfl
      obtain ⟨node, member, rfl⟩ := List.mem_map.mp hasObj
      rw [typeUses, List.countP_eq_zero] at unused
      exact unused node member (by simpa using ofType)
    · intro other hasOther
      obtain ⟨inTree, differs⟩ := AvlTree.has_delete.mp hasOther
      rw [others other differs, plain other inTree differs]
      simp
    · intro other hasOther
      obtain ⟨inTree, differs⟩ := AvlTree.has_delete.mp hasOther
      rw [others other differs]
      exact good.types.positive other inTree

theorem good_unrefType (good : reg.Good wip extra) : (unrefType extra reg).Good wip none := by
  cases extra with
  | none => exact good
  | some type => exact good_unref good

theorem good_createObjType (lib : Libubox) (good : reg.Good wip none) (sig : Bytes)
    (rnd : List UInt32) : (ubusCreateObjType lib sig rnd reg).2.2.Good wip
      (ubusCreateObjType lib sig rnd reg).1 := by
  unfold ubusCreateObjType
  rcases done : ubusAllocId reg.objTypes reg.brk rnd with ⟨_ | ⟨id, objTypes⟩, rest⟩
  · simp only [done]
    exact good
  obtain ⟨range, rfl, absent⟩ := ubusAllocId_some done
  simp only [done]
  split
  · exact good_unref (good_newType good absent range [])
  · exact good_newType good absent range _

theorem good_objectType (lib : Libubox) (good : reg.Good wip none) (attr : Attrs)
    (rnd : List UInt32) :
    (objectType lib attr rnd reg).2.2.Good wip (objectType lib attr rnd reg).1 := by
  unfold objectType
  split
  · exact good_getObjType good _
  · exact good_createObjType lib good _ rnd
  · exact good

end Types

/-! ### A new object -/

section NewObject

variable {extra : Option Nat} {reg : Registry} {id : UInt32} {type : Option Nat}

/-- The objects with a new one at `reg.brk`. -/
abbrev withObject (reg : Registry) (id : UInt32) (type : Option Nat) : Nat → Object :=
  Function.update reg.object reg.brk { id, type }

theorem Registry.Good.not_has_brk {wip : Option Nat} (good : reg.Good wip extra) :
    ¬ reg.objects.Has reg.brk :=
  fun has => absurd (good.objects.lt_of_has has) (lt_irrefl _)

theorem Registry.Good.withObject_of_has {wip : Option Nat} (good : reg.Good wip extra) {obj : Nat}
    (has : reg.objects.Has obj) : withObject reg id type obj = reg.object obj := by
  have differs : obj ≠ reg.brk := fun same => good.not_has_brk (same ▸ has)
  exact Function.update_of_ne differs _ _

theorem withObject_self : withObject reg id type reg.brk = { id, type } :=
  Function.update_self ..

theorem owners_newObject (good : reg.Good none extra) (range : ubusSystemObjectMax ≤ id) :
    Owners (some reg.brk) reg.clients (reg.objects.insert id reg.brk) reg.client
      (withObject reg id type) := by
  refine ⟨?_, ?_, ?_, ?_, good.owners.nodup⟩
  · intro obj cl has owner
    rcases AvlTree.has_insert.mp has with rfl | old
    · rw [withObject_self] at owner
      cases owner
    · rw [good.withObject_of_has old] at owner ⊢
      exact good.owners.owned obj cl old owner
  · intro obj has owner
    rcases AvlTree.has_insert.mp has with rfl | old
    · exact Or.inr rfl
    · rw [good.withObject_of_has old] at owner ⊢
      exact Or.inl ((good.owners.unowned obj old owner).resolve_right (by rintro ⟨⟩))
  · rintro obj ⟨⟩
    rw [withObject_self]
    exact ⟨AvlTree.has_insert.mpr (Or.inl rfl), rfl, range⟩
  · intro cl obj has
    rw [good.owners.listed cl obj has, AvlTree.has_insert]
    constructor
    · rintro ⟨old, owner⟩
      rw [good.withObject_of_has old]
      exact ⟨Or.inr old, owner⟩
    · rintro ⟨rfl | old, owner⟩
      · rw [withObject_self] at owner
        cases owner
      · rw [good.withObject_of_has old] at owner
        exact ⟨old, owner⟩

theorem typeUses_newObject (good : reg.Good none extra) (other : Nat) :
    typeUses (reg.objects.insert id reg.brk) (withObject reg id type) other =
      typeUses reg.objects reg.object other + if type = some other then 1 else 0 := by
  have old : typeUses reg.objects (withObject reg id type) other =
      typeUses reg.objects reg.object other := by
    refine List.countP_congr fun node member => ?_
    rw [good.withObject_of_has (AvlTree.has_of_mem member)]
  rw [← old, typeUses, typeUses, (AvlTree.insert_perm ..).countP_eq, List.countP_cons, withObject_self]
  simp

theorem types_newObject (id : UInt32) (good : reg.Good none type) :
    Types type (reg.objects.insert id reg.brk) reg.objTypes (withObject reg id type)
      (match type with
        | none => reg.objType
        | some type => Function.update reg.objType type
            { reg.objType type with refcount := (reg.objType type).refcount + 1 }) := by
  refine ⟨?_, good.types.held, ?_, ?_⟩
  · intro obj other has ofType
    rcases AvlTree.has_insert.mp has with rfl | old
    · rw [withObject_self] at ofType
      exact good.types.held other ofType
    · rw [good.withObject_of_has old] at ofType
      exact good.types.known obj other old ofType
  · intro other has
    rw [typeUses_newObject good]
    have count := good.types.refcount other has
    cases type with
    | none => simpa using count
    | some type =>
      simp only [Function.update_apply]
      split
      · rename_i same
        subst same
        rw [if_pos rfl] at count ⊢
        simp only [count]
      · rename_i differs
        have notSame : ¬ some type = some other := fun same => differs (Option.some.inj same).symm
        rw [if_neg notSame] at count ⊢
        exact count
  · intro other has
    cases type with
    | none => exact good.types.positive other has
    | some type =>
      simp only [Function.update_apply]
      split
      · exact Nat.succ_pos _
      · exact good.types.positive other has

theorem paths_newObject (good : reg.Good none extra) :
    Paths (reg.objects.insert id reg.brk) reg.path (withObject reg id type) := by
  refine ⟨good.paths.sorted, good.paths.unique, fun key obj => ?_⟩
  rw [good.paths.mem_iff key obj, AvlTree.has_insert]
  constructor
  · rintro ⟨old, path⟩
    rw [good.withObject_of_has old]
    exact ⟨Or.inr old, path⟩
  · rintro ⟨rfl | old, path⟩
    · rw [withObject_self] at path
      cases path
    · rw [good.withObject_of_has old] at path
      exact ⟨old, path⟩

theorem subs_newObject (good : reg.Good none extra) :
    Subs (reg.objects.insert id reg.brk) (withObject reg id type) reg.subscription
      (reg.brk + 1) := by
  refine ⟨?_, ?_, ?_, ?_, ?_, ?_⟩
  · intro obj sub has member
    rcases AvlTree.has_insert.mp has with rfl | old
    · rw [withObject_self] at member
      cases member
    rw [good.withObject_of_has old] at member
    obtain ⟨target, live, listed⟩ := good.subs.subscribers obj sub old member
    rw [good.withObject_of_has live]
    exact ⟨target, AvlTree.has_insert.mpr (Or.inr live), listed⟩
  · intro obj sub has member
    rcases AvlTree.has_insert.mp has with rfl | old
    · rw [withObject_self] at member
      cases member
    rw [good.withObject_of_has old] at member
    obtain ⟨subscriber, live, listed⟩ := good.subs.targets obj sub old member
    rw [good.withObject_of_has live]
    exact ⟨subscriber, AvlTree.has_insert.mpr (Or.inr live), listed⟩
  · intro obj sub has member
    rcases AvlTree.has_insert.mp has with rfl | old
    · rw [withObject_self] at member
      cases member
    rw [good.withObject_of_has old] at member ⊢
    obtain ⟨_, live, _⟩ := good.subs.subscribers obj sub old member
    rw [good.withObject_of_has live]
    exact good.subs.owners obj sub old member
  · intro obj has
    rcases AvlTree.has_insert.mp has with rfl | old
    · rw [withObject_self]
      exact List.nodup_nil
    · rw [good.withObject_of_has old]
      exact good.subs.nodupSubscribers obj old
  · intro obj has
    rcases AvlTree.has_insert.mp has with rfl | old
    · rw [withObject_self]
      exact List.nodup_nil
    · rw [good.withObject_of_has old]
      exact good.subs.nodupTargets obj old
  · intro obj sub has member
    rcases AvlTree.has_insert.mp has with rfl | old
    · rw [withObject_self] at member
      cases member
    · rw [good.withObject_of_has old] at member
      exact Nat.lt_succ_of_lt (good.subs.below obj sub old member)

theorem patterns_newObject (good : reg.Good none extra) :
    Patterns (reg.objects.insert id reg.brk) (withObject reg id type) reg.eventSource reg.patterns
      (reg.brk + 1) := by
  refine ⟨good.patterns.sorted, good.patterns.addrs,
    fun node member => Nat.lt_succ_of_lt (good.patterns.below node member), ?_, ?_, ?_⟩
  · intro obj ev has member
    rcases AvlTree.has_insert.mp has with rfl | old
    · rw [withObject_self] at member
      cases member
    · rw [good.withObject_of_has old] at member
      exact good.patterns.events obj ev old member
  · intro node member
    obtain ⟨key, live, listed, owner⟩ := good.patterns.owner node member
    rw [good.withObject_of_has live]
    exact ⟨key, AvlTree.has_insert.mpr (Or.inr live), listed, owner⟩
  · intro obj has
    rcases AvlTree.has_insert.mp has with rfl | old
    · rw [withObject_self]
      exact List.nodup_nil
    · rw [good.withObject_of_has old]
      exact good.patterns.nodup obj old

/-- **A new object**, of the type the code holds. -/
theorem good_newObject (good : reg.Good none type) (range : ubusSystemObjectMax ≤ id)
    (absent : ∀ node ∈ reg.objects, node.1 ≠ id) :
    (newObject id (reg.objects.insert id reg.brk) type reg).Good (some reg.brk) type := by
  have objects : (reg.objects.insert id reg.brk).Keyed
      (fun obj => (withObject reg id type obj).id) (reg.brk + 1) := by
    refine good.objects.insert le_rfl absent ?_ ?_ (Nat.lt_succ_self _)
    · rw [withObject_self]
    · intro other has
      rw [good.withObject_of_has has]
  have types := types_newObject id good
  cases type with
  | none =>
    exact ⟨good.clients.congr (fun _ _ => rfl) (Nat.le_succ _), objects,
      good.objTypes.congr (fun _ _ => rfl) (Nat.le_succ _), good.clientIds, good.typeIds,
      owners_newObject good range, types, paths_newObject good, subs_newObject good,
      patterns_newObject good, good.acl⟩
  | some type =>
    exact ⟨good.clients.congr (fun _ _ => rfl) (Nat.le_succ _), objects,
      good.objTypes.congr (fun other _ =>
        update_keeps ObjType.id reg.objType (by rfl) other) (Nat.le_succ _),
      good.clientIds, good.typeIds, owners_newObject good range, types, paths_newObject good,
      subs_newObject good, patterns_newObject good, good.acl⟩

end NewObject

/-! ### An object gets its path and its owner -/

section Publish

variable {wip extra : Option Nat} {reg : Registry} {obj : Nat}

theorem good_insertPath (good : reg.Good wip extra) (has : reg.HasObject obj)
    (pathless : (reg.object obj).path = none) {key : CString} {after : Registry}
    (inserted : insertPath obj key reg = some after) : after.Good wip extra := by
  obtain ⟨path, entered, rfl⟩ := Option.map_eq_some_iff.mp inserted
  obtain ⟨rfl, absent⟩ := AvlTree.insertNew_eq_some entered
  have keeps {β : Type} (g : Object → β) (same : ∀ x : Object, g { x with path := some key } = g x) :=
    mapObject_keeps g same reg obj
  exact {
    clients := good.clients
    objects := good.objects.congr (fun other _ => keeps Object.id (fun _ => rfl) other) le_rfl
    objTypes := good.objTypes
    clientIds := good.clientIds
    typeIds := good.typeIds
    owners := good.owners.congr (keeps Object.client fun _ => rfl) (keeps Object.id fun _ => rfl)
      (keeps Object.recvMsg fun _ => rfl)
    types := good.types.congr (keeps Object.type fun _ => rfl)
    paths := by
      refine ⟨AvlTree.sorted_insert good.paths.sorted, AvlTree.uniqueKeys_insert good.paths.unique absent,
        fun other addr => ?_⟩
      rw [AvlTree.mem_insert, good.paths.mem_iff]
      show _ ↔ reg.objects.Has addr ∧ (Function.update reg.object obj
        { reg.object obj with path := some key } addr).path = some other
      rw [Function.update_apply]
      split
      · rename_i same
        subst same
        simp only [Prod.mk.injEq, and_true, pathless, reduceCtorEq, and_false, or_false,
          Option.some.injEq]
        exact ⟨fun same => ⟨has, same.symm⟩, fun both => both.2.symm⟩
      · rename_i differs
        simp only [Prod.mk.injEq, differs, and_false, false_or]
    subs := good.subs.congr (keeps Object.subscribers fun _ => rfl)
      (keeps Object.targetList fun _ => rfl)
      (fun other _ => (keeps Object.client (fun _ => rfl) other).trans) le_rfl
    patterns := good.patterns.congr (keeps Object.events fun _ => rfl)
      (fun other _ => (keeps Object.client (fun _ => rfl) other).trans) le_rfl
    acl := good.acl }

theorem Registry.Good.unlinked (good : reg.Good wip extra) (has : reg.HasObject obj)
    (ownerless : (reg.object obj).client = none) :
    (reg.object obj).subscribers = [] ∧ (reg.object obj).targetList = [] ∧
      (reg.object obj).events = [] := by
  refine ⟨?_, ?_, ?_⟩ <;> rw [List.eq_nil_iff_forall_not_mem]
  · intro sub member
    obtain ⟨_, _, _, owner, _⟩ := good.subs.owners obj sub has member
    rw [ownerless] at owner
    cases owner
  · intro sub member
    obtain ⟨subscriber, live, listed⟩ := good.subs.targets obj sub has member
    obtain ⟨_, _, owner, _⟩ := good.subs.owners _ sub live listed
    rw [subscriber, ownerless] at owner
    cases owner
  · intro ev member
    obtain ⟨owned, live⟩ := good.patterns.events obj ev has member
    obtain ⟨node, inside, rfl⟩ := List.mem_map.mp live
    obtain ⟨_, _, _, _, owner⟩ := good.patterns.owner node inside
    rw [owned, ownerless] at owner
    cases owner

theorem owners_linkObject (good : reg.Good (some obj) extra) {cl : Nat} (known : reg.HasClient cl) :
    Owners none reg.clients reg.objects (linkObject cl obj reg).client
      (linkObject cl obj reg).object := by
  obtain ⟨has, ownerless, range⟩ := good.owners.made obj rfl
  have object : ∀ other, (linkObject cl obj reg).object other = if other = obj then
      { reg.object obj with client := some cl } else reg.object other :=
    fun other => Function.update_apply ..
  have client : ∀ other, (linkObject cl obj reg).client other = if other = cl then
      { reg.client cl with objects := obj :: (reg.client cl).objects } else reg.client other :=
    fun other => Function.update_apply ..
  have notListed : obj ∉ (reg.client cl).objects := fun member => by
    have owner := ((good.owners.listed cl obj known).mp member).2
    rw [ownerless] at owner
    cases owner
  refine ⟨?_, ?_, (by rintro _ ⟨⟩), ?_, ?_⟩
  · intro other owner hasOther isOwner
    rw [object] at isOwner ⊢
    split at isOwner
    · rename_i same
      cases isOwner
      rw [if_pos same]
      exact ⟨known, range⟩
    · rename_i differs
      rw [if_neg differs]
      exact good.owners.owned other owner hasOther isOwner
  · intro other hasOther isOwner
    rw [object] at isOwner ⊢
    split at isOwner
    · cases isOwner
    rename_i differs
    rw [if_neg differs]
    exact Or.inl ((good.owners.unowned other hasOther isOwner).resolve_right
      fun same => differs (Option.some.inj same).symm)
  · intro owner other knownOwner
    rw [object, client]
    by_cases sameOwner : owner = cl
    · subst sameOwner
      rw [if_pos rfl, List.mem_cons]
      by_cases same : other = obj
      · subst same
        rw [if_pos rfl]
        exact ⟨fun _ => ⟨has, rfl⟩, fun _ => Or.inl rfl⟩
      · rw [if_neg same, ← good.owners.listed owner other knownOwner]
        exact or_iff_right same
    · rw [if_neg sameOwner, good.owners.listed owner other knownOwner]
      by_cases same : other = obj
      · subst same
        rw [if_pos rfl, ownerless]
        exact ⟨(fun both => by cases both.2), fun both =>
          absurd (Option.some.inj both.2).symm sameOwner⟩
      · rw [if_neg same]
  · intro owner knownOwner
    rw [client]
    split
    · exact List.nodup_cons.mpr ⟨notListed, good.owners.nodup cl known⟩
    · exact good.owners.nodup owner knownOwner

theorem good_linkObject (good : reg.Good (some obj) none) {cl : Nat} (known : reg.HasClient cl) :
    (linkObject cl obj reg).Ok := by
  obtain ⟨has, ownerless, _⟩ := good.owners.made obj rfl
  have keeps {β : Type} (g : Object → β) (same : ∀ x : Object, g { x with client := some cl } = g x) :=
    mapObject_keeps g same reg obj
  have owned : ∀ other owner, (reg.object other).client = some owner →
      ((linkObject cl obj reg).object other).client = some owner := by
    intro other owner isOwner
    have differs : other ≠ obj := by
      rintro rfl
      rw [ownerless] at isOwner
      cases isOwner
    show (Function.update reg.object obj _ other).client = _
    rw [Function.update_of_ne differs]
    exact isOwner
  exact {
    clients := good.clients.congr
      (fun other _ => update_keeps Client.id reg.client (by rfl) other) le_rfl
    objects := good.objects.congr (fun other _ => keeps Object.id (fun _ => rfl) other) le_rfl
    objTypes := good.objTypes
    clientIds := good.clientIds
    typeIds := good.typeIds
    owners := owners_linkObject good known
    types := good.types.congr (keeps Object.type fun _ => rfl)
    paths := good.paths.congr (keeps Object.path fun _ => rfl)
    subs := good.subs.congr (keeps Object.subscribers fun _ => rfl)
      (keeps Object.targetList fun _ => rfl) owned le_rfl
    patterns := good.patterns.congr (keeps Object.events fun _ => rfl) owned le_rfl
    acl := good.acl }

end Publish

/-! ### An object goes -/

section Drop

variable {wip : Option Nat} {reg : Registry} {obj : Nat}

/-- The registry without the object, the reference to its type still held. -/
abbrev withoutObject (obj : Nat) (reg : Registry) : Registry :=
  { unlinkObject obj { reg with path := reg.path.delete obj } with
    objects := reg.objects.delete obj }

theorem removePath_eq (good : reg.Good wip none) (obj : Nat) :
    removePath obj reg = { reg with path := reg.path.delete obj } := by
  unfold removePath
  split
  · rename_i pathless
    have same : reg.path.delete obj = reg.path := by
      refine List.filter_eq_self.mpr fun node member => ?_
      rw [decide_eq_true_iff]
      rintro rfl
      have path := ((good.paths.mem_iff node.1 node.2).mp member).2
      rw [pathless] at path
      cases path
    rw [same]
  · rfl

theorem unlinkObject_eq (obj : Nat) (reg : Registry) : unlinkObject obj reg =
    { reg with client := (unlinkObject obj reg).client } := by
  unfold unlinkObject
  split <;> rfl

theorem unlinkObject_client (obj cl : Nat) (reg : Registry) :
    ((unlinkObject obj reg).client cl).objects = (if (reg.object obj).client = some cl then
      (reg.client cl).objects.erase obj else (reg.client cl).objects) ∧
    ((unlinkObject obj reg).client cl).id = (reg.client cl).id ∧
    ((unlinkObject obj reg).client cl).cred = (reg.client cl).cred := by
  unfold unlinkObject
  split
  · rename_i ownerless
    rw [ownerless]
    exact ⟨rfl, rfl, rfl⟩
  · rename_i owner owned
    simp only [owned, Registry.mapClient, Function.update_apply, Option.some.injEq]
    split
    · rename_i same
      rw [if_pos same.symm, same]
      exact ⟨rfl, rfl, rfl⟩
    · rename_i differs
      rw [if_neg fun same => differs same.symm]
      exact ⟨rfl, rfl, rfl⟩

theorem dropObject_eq (good : reg.Good wip none) (obj : Nat) :
    dropObject obj reg = unrefType (reg.object obj).type (withoutObject obj reg) := by
  unfold dropObject withoutObject
  rw [removePath_eq good, unlinkObject_eq]

theorem owners_dropObject (good : reg.Good wip none) (done : ∀ other, wip = some other → other = obj) :
    Owners none reg.clients (reg.objects.delete obj)
      (unlinkObject obj { reg with path := reg.path.delete obj }).client reg.object := by
  have client := fun cl => unlinkObject_client obj cl { reg with path := reg.path.delete obj }
  refine ⟨?_, ?_, (by rintro _ ⟨⟩), ?_, ?_⟩
  · intro other cl has owner
    exact good.owners.owned other cl (AvlTree.has_delete.mp has).1 owner
  · intro other has owner
    obtain ⟨live, differs⟩ := AvlTree.has_delete.mp has
    exact Or.inl ((good.owners.unowned other live owner).resolve_right
      fun isWip => differs (done other isWip))
  · intro cl other known
    rw [(client cl).1, AvlTree.has_delete]
    split
    · rw [(good.owners.nodup cl known).mem_erase_iff, good.owners.listed cl other known]
      tauto
    rename_i notOwner
    rw [good.owners.listed cl other known]
    refine ⟨fun both => ⟨⟨both.1, ?_⟩, both.2⟩, fun both => ⟨both.1.1, both.2⟩⟩
    rintro rfl
    exact notOwner both.2
  · intro cl known
    rw [(client cl).1]
    split
    · exact (good.owners.nodup cl known).erase obj
    · exact good.owners.nodup cl known

theorem typeUses_delete (good : reg.Good wip none) (has : reg.HasObject obj) (type : Nat) :
    typeUses reg.objects reg.object type = typeUses (reg.objects.delete obj) reg.object type +
      if (reg.object obj).type = some type then 1 else 0 := by
  obtain ⟨key, perm⟩ := AvlTree.perm_delete good.objects.addrs has
  rw [typeUses, typeUses, perm.countP_eq, List.countP_cons]
  simp

theorem types_dropObject (good : reg.Good wip none) (has : reg.HasObject obj) :
    Types (reg.object obj).type (reg.objects.delete obj) reg.objTypes reg.object reg.objType := by
  refine ⟨?_, ?_, ?_, good.types.positive⟩
  · intro other type hasOther ofType
    exact good.types.known other type (AvlTree.has_delete.mp hasOther).1 ofType
  · intro type ofType
    exact good.types.known obj type has ofType
  intro type known
  have count := good.types.refcount type known
  rw [typeUses_delete good has] at count
  simpa using count

theorem paths_dropObject (good : reg.Good wip none) (obj : Nat) :
    Paths (reg.objects.delete obj) (reg.path.delete obj) reg.object := by
  refine ⟨AvlTree.sorted_delete good.paths.sorted, AvlTree.uniqueKeys_delete good.paths.unique,
    fun key other => ?_⟩
  rw [AvlTree.mem_delete, good.paths.mem_iff, AvlTree.has_delete]
  tauto

theorem subs_dropObject (good : reg.Good wip none)
    (subscribers : (reg.object obj).subscribers = []) (targets : (reg.object obj).targetList = []) :
    Subs (reg.objects.delete obj) reg.object reg.subscription reg.brk := by
  refine ⟨?_, ?_, ?_, ?_, ?_, ?_⟩
  · intro other sub has member
    obtain ⟨isTarget, live, listed⟩ :=
      good.subs.subscribers other sub (AvlTree.has_delete.mp has).1 member
    refine ⟨isTarget, AvlTree.has_delete.mpr ⟨live, fun same => ?_⟩, listed⟩
    rw [same, targets] at listed
    cases listed
  · intro other sub has member
    obtain ⟨isSubscriber, live, listed⟩ :=
      good.subs.targets other sub (AvlTree.has_delete.mp has).1 member
    refine ⟨isSubscriber, AvlTree.has_delete.mpr ⟨live, fun same => ?_⟩, listed⟩
    rw [same, subscribers] at listed
    cases listed
  · intro other sub has member
    exact good.subs.owners other sub (AvlTree.has_delete.mp has).1 member
  · intro other has
    exact good.subs.nodupSubscribers other (AvlTree.has_delete.mp has).1
  · intro other has
    exact good.subs.nodupTargets other (AvlTree.has_delete.mp has).1
  · intro other sub has member
    exact good.subs.below other sub (AvlTree.has_delete.mp has).1 member

theorem patterns_dropObject (good : reg.Good wip none) (events : (reg.object obj).events = []) :
    Patterns (reg.objects.delete obj) reg.object reg.eventSource reg.patterns reg.brk := by
  refine ⟨good.patterns.sorted, good.patterns.addrs, good.patterns.below, ?_, ?_, ?_⟩
  · intro other ev has member
    exact good.patterns.events other ev (AvlTree.has_delete.mp has).1 member
  · intro node member
    obtain ⟨key, live, listed, owner⟩ := good.patterns.owner node member
    refine ⟨key, AvlTree.has_delete.mpr ⟨live, fun same => ?_⟩, listed, owner⟩
    rw [same, events] at listed
    cases listed
  · intro other has
    exact good.patterns.nodup other (AvlTree.has_delete.mp has).1

/-- **An object without subscriptions and event patterns goes.** -/
theorem good_dropObject (good : reg.Good wip none) (done : ∀ other, wip = some other → other = obj)
    (has : reg.HasObject obj) (subscribers : (reg.object obj).subscribers = [])
    (targets : (reg.object obj).targetList = []) (events : (reg.object obj).events = []) :
    (dropObject obj reg).Ok := by
  rw [dropObject_eq good]
  refine good_unrefType ?_
  rw [withoutObject, unlinkObject_eq]
  exact {
    clients := good.clients.congr (fun cl _ =>
      (unlinkObject_client obj cl { reg with path := reg.path.delete obj }).2.1) le_rfl
    objects := good.objects.delete obj
    objTypes := good.objTypes
    clientIds := good.clientIds
    typeIds := good.typeIds
    owners := owners_dropObject good done
    types := types_dropObject good has
    paths := paths_dropObject good obj
    subs := subs_dropObject good subscribers targets
    patterns := patterns_dropObject good events
    acl := good.acl }

end Drop

/-! ### Clients and access lists -/

section Clients

variable {reg : Registry}

/-- **A client connects.** -/
theorem good_newClient (good : reg.Ok) {id : UInt32} (range : ubusSystemObjectMax ≤ id)
    (absent : ∀ node ∈ reg.clients, node.1 ≠ id) (cred : Cred) :
    Registry.Ok { reg with
      client := Function.update reg.client reg.brk { id, cred }
      clients := reg.clients.insert id reg.brk
      brk := reg.brk + 1 } := by
  have old : ∀ cl, reg.HasClient cl → cl ≠ reg.brk := fun cl has same =>
    absurd (good.clients.lt_of_has (same ▸ has)) (lt_irrefl _)
  have unowned : ∀ obj, reg.HasObject obj → (reg.object obj).client ≠ some reg.brk :=
    fun obj has owner => old _ (good.owners.owned obj _ has owner).1 rfl
  have keyed : (reg.clients.insert id reg.brk).Keyed
      (fun cl => (Function.update reg.client reg.brk { id, cred } cl).id) (reg.brk + 1) := by
    refine good.clients.insert le_rfl absent ?_ ?_ (Nat.lt_succ_self _)
    · rw [Function.update_self]
    · intro other has
      rw [Function.update_of_ne (old other has)]
  have ids : ∀ node ∈ reg.clients.insert id reg.brk, ubusSystemObjectMax ≤ node.1 := by
    intro node member
    rcases AvlTree.mem_insert.mp member with rfl | member
    · exact range
    · exact good.clientIds node member
  have owners : Owners none (reg.clients.insert id reg.brk) reg.objects
      (Function.update reg.client reg.brk { id, cred }) reg.object := by
    refine ⟨?_, good.owners.unowned, good.owners.made, ?_, ?_⟩
    · intro obj cl has owner
      obtain ⟨known, range⟩ := good.owners.owned obj cl has owner
      exact ⟨AvlTree.has_insert.mpr (Or.inr known), range⟩
    · intro cl obj known
      rcases AvlTree.has_insert.mp known with rfl | known
      · rw [Function.update_self]
        exact ⟨fun member => absurd member List.not_mem_nil,
          fun both => absurd both.2 (unowned obj both.1)⟩
      · rw [Function.update_of_ne (old cl known)]
        exact good.owners.listed cl obj known
    · intro cl known
      rcases AvlTree.has_insert.mp known with rfl | known
      · rw [Function.update_self]
        exact List.nodup_nil
      · rw [Function.update_of_ne (old cl known)]
        exact good.owners.nodup cl known
  exact ⟨keyed, good.objects.congr (fun _ _ => rfl) (Nat.le_succ _),
    good.objTypes.congr (fun _ _ => rfl) (Nat.le_succ _), ids, good.typeIds, owners, good.types,
    good.paths, good.subs.congr (fun _ => rfl) (fun _ => rfl) (fun _ _ => (·)) (Nat.le_succ _),
    good.patterns.congr (fun _ => rfl) (fun _ _ => (·)) (Nat.le_succ _), good.acl⟩

/-- **A client without objects goes.** -/
theorem good_freeClientId (good : reg.Ok) {cl : Nat}
    (none : reg.HasClient cl → (reg.client cl).objects = []) :
    Registry.Ok { reg with clients := reg.clients.delete cl } := by
  refine ⟨good.clients.delete cl, good.objects, good.objTypes,
    fun node member => good.clientIds node (AvlTree.mem_delete.mp member).1, good.typeIds,
    ⟨?_, good.owners.unowned, good.owners.made, ?_, ?_⟩, good.types, good.paths, good.subs,
    good.patterns, good.acl⟩
  · intro obj owner has owned
    obtain ⟨known, range⟩ := good.owners.owned obj owner has owned
    refine ⟨AvlTree.has_delete.mpr ⟨known, ?_⟩, range⟩
    rintro rfl
    have member := (good.owners.listed owner obj known).mpr ⟨has, owned⟩
    rw [none known] at member
    cases member
  · intro owner obj known
    exact good.owners.listed owner obj (AvlTree.has_delete.mp known).1
  · intro owner known
    exact good.owners.nodup owner (AvlTree.has_delete.mp known).1

theorem good_acl (good : reg.Ok) {acl : AclState} (consistent : acl.Consistent) :
    Registry.Ok { reg with acl } :=
  ⟨good.clients, good.objects, good.objTypes, good.clientIds, good.typeIds, good.owners, good.types,
    good.paths, good.subs, good.patterns, consistent⟩

end Clients

/-! ### Start-up -/

section Init

/-- A registry in which nothing but system objects exists. -/
structure Registry.Fresh (reg : Registry) : Prop where
  objects : reg.objects.Keyed (fun obj => (reg.object obj).id) reg.brk
  system : ∀ obj, reg.objects.Has obj → ∃ recv,
    reg.object obj = { id := recv.id, recvMsg := some recv }
  clients : reg.clients = []
  objTypes : reg.objTypes = []
  path : reg.path = []
  patterns : reg.patterns = []
  acl : reg.acl = {}

theorem Registry.Fresh.systemObject {reg : Registry} (fresh : reg.Fresh) (recv : RecvMsg)
    (absent : ∀ node ∈ reg.objects, node.1 ≠ recv.id) :
    (Ubus.systemObject recv.id recv reg).Fresh := by
  have old : ∀ obj, reg.objects.Has obj → obj ≠ reg.brk := fun obj has same =>
    absurd (fresh.objects.lt_of_has (same ▸ has)) (lt_irrefl _)
  refine ⟨?_, ?_, fresh.clients, fresh.objTypes, fresh.path, fresh.patterns, fresh.acl⟩
  · refine fresh.objects.insert le_rfl absent ?_ ?_ (Nat.lt_succ_self _)
    · show (Function.update reg.object reg.brk _ reg.brk).id = _
      rw [Function.update_self]
    · intro other has
      show (Function.update reg.object reg.brk _ other).id = _
      rw [Function.update_of_ne (old other has)]
  · intro obj has
    show ∃ other, Function.update reg.object reg.brk _ obj = _
    rcases AvlTree.has_insert.mp has with rfl | has
    · exact ⟨recv, Function.update_self ..⟩
    · rw [Function.update_of_ne (old obj has)]
      exact fresh.system obj has

theorem Registry.Fresh.ok {reg : Registry} (fresh : reg.Fresh) : reg.Ok := by
  have field {β : Type} (g : Object → β) (value : β)
      (same : ∀ recv : RecvMsg, g { id := recv.id, recvMsg := some recv } = value) {obj : Nat}
      (has : reg.objects.Has obj) : g (reg.object obj) = value := by
    obtain ⟨recv, object⟩ := fresh.system obj has
    rw [object]
    exact same recv
  have noClient : ∀ cl, ¬ reg.clients.Has cl := by simp [fresh.clients, AvlTree.Has]
  have noType : ∀ type, ¬ reg.objTypes.Has type := by simp [fresh.objTypes, AvlTree.Has]
  have client {obj : Nat} (has : reg.objects.Has obj) :=
    field Object.client none (fun _ => rfl) has
  have subscribers {obj : Nat} (has : reg.objects.Has obj) :=
    field Object.subscribers [] (fun _ => rfl) has
  have targets {obj : Nat} (has : reg.objects.Has obj) :=
    field Object.targetList [] (fun _ => rfl) has
  have events {obj : Nat} (has : reg.objects.Has obj) :=
    field Object.events [] (fun _ => rfl) has
  exact {
    clients := by
      rw [fresh.clients]
      exact ⟨List.Pairwise.nil, List.nodup_nil, by simp, by simp⟩
    objects := fresh.objects
    objTypes := by
      rw [fresh.objTypes]
      exact ⟨List.Pairwise.nil, List.nodup_nil, by simp, by simp⟩
    clientIds := by simp [fresh.clients]
    typeIds := by simp [fresh.objTypes]
    owners := by
      refine ⟨?_, ?_, (by rintro _ ⟨⟩), fun cl _ has => absurd has (noClient cl),
        fun cl has => absurd has (noClient cl)⟩
      · intro obj cl has owner
        rw [client has] at owner
        cases owner
      · intro obj has _
        obtain ⟨recv, object⟩ := fresh.system obj has
        rw [object]
        exact Or.inl ⟨recv, rfl, rfl⟩
    types := by
      refine ⟨?_, (by rintro _ ⟨⟩), fun type has => absurd has (noType type),
        fun type has => absurd has (noType type)⟩
      intro obj type has ofType
      rw [field Object.type none (fun _ => rfl) has] at ofType
      cases ofType
    paths := by
      refine ⟨?_, ?_, fun key obj => ?_⟩
      · rw [fresh.path]
        exact List.Pairwise.nil
      · rw [fresh.path]
        exact List.Pairwise.nil
      rw [fresh.path]
      refine ⟨fun member => absurd member List.not_mem_nil, fun both => ?_⟩
      have path := both.2
      rw [field Object.path none (fun _ => rfl) both.1] at path
      cases path
    subs := by
      refine ⟨?_, ?_, ?_, ?_, ?_, ?_⟩
      · intro obj sub has member
        rw [subscribers has] at member
        cases member
      · intro obj sub has member
        rw [targets has] at member
        cases member
      · intro obj sub has member
        rw [subscribers has] at member
        cases member
      · intro obj has
        rw [subscribers has]
        exact List.nodup_nil
      · intro obj has
        rw [targets has]
        exact List.nodup_nil
      · intro obj sub has member
        rw [subscribers has] at member
        cases member
    patterns := by
      refine ⟨?_, ?_, ?_, ?_, ?_, ?_⟩
      · rw [fresh.patterns]
        exact List.Pairwise.nil
      · rw [fresh.patterns]
        exact List.nodup_nil
      · simp [fresh.patterns]
      · intro obj ev has member
        rw [events has] at member
        cases member
      · simp [fresh.patterns]
      · intro obj has
        rw [events has]
        exact List.nodup_nil
    acl := by
      rw [fresh.acl]
      exact AclState.Consistent.init }

/-- **The daemon starts with an intact registry.** -/
theorem good_init : Registry.init.Ok := by
  have empty : Registry.Fresh {} :=
    ⟨⟨List.Pairwise.nil, List.nodup_nil, by simp, by simp⟩, by simp [AvlTree.Has], rfl, rfl, rfl, rfl,
      rfl⟩
  have one := empty.systemObject .event (by simp)
  have two := one.systemObject .acl (by decide)
  exact (two.systemObject .monitor (by decide)).ok

end Init

end Ubus
