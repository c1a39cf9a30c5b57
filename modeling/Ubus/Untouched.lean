/-
**Clients cannot disturb what they do not own.**

* `SameObject reg reg' obj` — an object is as before, but for the lists of its subscriptions.
* `Untouched cl reg reg'` — what a client does to objects and subscriptions.
* `clients_isolated`: every message that is handled and every disconnect leaves alone what belongs to
  others.
-/

import Ubus.Effects
import Ubus.Safety
import Ubus.Turns

namespace Ubus

open Lib

variable {extra : Option Nat} {type : Nat}

/-- The subscription is in the registry. -/
def Registry.HasSub (reg : Registry) (sub : Nat) : Prop :=
  ∃ obj, reg.HasObject obj ∧ sub ∈ (reg.object obj).subscribers

/-- **An object is as before**, apart from the lists of its subscriptions: it is live, with the same id,
path, type, owner and event patterns, and its type says the same. -/
structure SameObject (reg reg' : Registry) (obj : Nat) : Prop where
  live : reg'.HasObject obj
  same : reg'.object obj = { reg.object obj with
    subscribers := (reg'.object obj).subscribers, targetList := (reg'.object obj).targetList }
  source : ∀ ev ∈ (reg.object obj).events, reg'.eventSource ev = reg.eventSource ev
  contents : ∀ type, (reg.object obj).type = some type →
    (reg'.objType type).id = (reg.objType type).id ∧
      (reg'.objType type).methods = (reg.objType type).methods

/-- **A change touches only the objects in `mine`**, and ends only subscriptions of theirs. -/
structure Leaves (mine : Nat → Prop) (reg reg' : Registry) : Prop where
  object : ∀ obj, reg.HasObject obj → ¬ mine obj → SameObject reg reg' obj
  subs : ∀ sub, reg'.HasSub sub → reg.HasSub sub ∧ reg'.subscription sub = reg.subscription sub
  ended : ∀ sub, reg.HasSub sub → reg'.HasSub sub ∨ mine (reg.subscription sub).subscriber ∨
    mine (reg.subscription sub).target
  clients : reg'.clients = reg.clients
  client : ∀ other, (reg'.client other).id = (reg.client other).id ∧
    (reg'.client other).cred = (reg.client other).cred

section Leaves

variable {mine mine' : Nat → Prop} {wip : Option Nat} {reg reg' reg'' : Registry} {obj sub : Nat}

theorem SameObject.trans (one : SameObject reg reg' obj) (two : SameObject reg' reg'' obj) :
    SameObject reg reg'' obj := by
  have events : (reg'.object obj).events = (reg.object obj).events := by rw [one.same]
  have type : (reg'.object obj).type = (reg.object obj).type := by rw [one.same]
  refine ⟨two.live, ?_, fun ev member => ?_, fun type' typed => ?_⟩
  · have same := two.same
    rw [one.same] at same
    exact same
  · rw [two.source ev (events ▸ member), one.source ev member]
  · obtain ⟨id, methods⟩ := one.contents type' typed
    obtain ⟨id', methods'⟩ := two.contents type' (type.trans typed)
    exact ⟨id'.trans id, methods'.trans methods⟩

theorem Leaves.trans (one : Leaves mine reg reg') (two : Leaves mine reg' reg'') : Leaves mine reg reg'' := by
  refine ⟨fun obj has other => ?_, fun sub has => ?_, fun sub has => ?_,
    two.clients.trans one.clients, fun other => ⟨(two.client other).1.trans (one.client other).1,
      (two.client other).2.trans (one.client other).2⟩⟩
  · have first := one.object obj has other
    exact first.trans (two.object obj first.live other)
  · obtain ⟨has', same'⟩ := two.subs sub has
    obtain ⟨has, same⟩ := one.subs sub has'
    exact ⟨has, same'.trans same⟩
  · rcases one.ended sub has with has' | gone
    · rcases two.ended sub has' with has'' | gone
      · exact Or.inl has''
      · rw [(one.subs sub has').2] at gone
        exact Or.inr gone
    · exact Or.inr gone

theorem Leaves.of_records (clients : reg'.clients = reg.clients)
    (client : ∀ other, (reg'.client other).id = (reg.client other).id ∧
      (reg'.client other).cred = (reg.client other).cred) (objects : reg'.objects = reg.objects) (object : reg'.object = reg.object)
    (subscription : reg'.subscription = reg.subscription)
    (eventSource : reg'.eventSource = reg.eventSource)
    (objType : ∀ obj type, reg.HasObject obj → (reg.object obj).type = some type →
      (reg'.objType type).id = (reg.objType type).id ∧
        (reg'.objType type).methods = (reg.objType type).methods) : Leaves mine reg reg' := by
  have has : ∀ sub, reg'.HasSub sub ↔ reg.HasSub sub := fun sub => by
    rw [Registry.HasSub, object, Registry.HasSub]
    simp only [Registry.HasObject, objects]
  refine ⟨fun obj live _ => ⟨?_, by rw [object], fun ev _ => by rw [eventSource],
    fun type => objType obj type live⟩, fun sub inside => ⟨(has sub).mp inside, by rw [subscription]⟩,
    fun sub inside => Or.inl ((has sub).mpr inside), clients, client⟩
  rw [Registry.HasObject, objects]
  exact live

theorem Leaves.of_types (good : reg.Good wip extra) (clients : reg'.clients = reg.clients)
    (client : reg'.client = reg.client) (objects : reg'.objects = reg.objects)
    (object : reg'.object = reg.object) (subscription : reg'.subscription = reg.subscription)
    (eventSource : reg'.eventSource = reg.eventSource)
    (objType : ∀ type, reg.objTypes.Has type → (reg'.objType type).id = (reg.objType type).id ∧ (reg'.objType type).methods = (reg.objType type).methods) :
    Leaves mine reg reg' :=
  .of_records clients (fun other => by rw [client]; exact ⟨rfl, rfl⟩) objects object subscription
    eventSource fun obj type live typed => objType type (good.types.known obj type live typed)

theorem Leaves.refl (reg : Registry) : Leaves mine reg reg :=
  .of_records rfl (fun _ => ⟨rfl, rfl⟩) rfl rfl rfl rfl fun _ _ _ _ => ⟨rfl, rfl⟩

theorem Leaves.mapObject {f : Object → Object} (is : mine obj)
    (subscribers : ∀ x, (f x).subscribers = x.subscribers) :
    Leaves mine reg (reg.mapObject obj f) := by
  have list : ∀ other, ((reg.mapObject obj f).object other).subscribers =
      (reg.object other).subscribers := mapObject_keeps Object.subscribers subscribers reg obj
  have has : ∀ sub, (reg.mapObject obj f).HasSub sub ↔ reg.HasSub sub := fun sub => by
    simp only [Registry.HasSub, list]
    exact Iff.rfl
  refine ⟨fun other live differs => ⟨live, ?_, fun _ _ => rfl, fun _ _ => ⟨rfl, rfl⟩⟩,
    fun sub inside => ⟨(has sub).mp inside, rfl⟩, fun sub inside => Or.inl ((has sub).mpr inside),
    rfl, fun _ => ⟨rfl, rfl⟩⟩
  have apart : other ≠ obj := by
    rintro rfl
    exact differs is
  have here : (reg.mapObject obj f).object other = reg.object other :=
    Function.update_of_ne apart _ _
  rw [here]

theorem Leaves.unlink (linked : Linked reg sub)
    (is : mine (reg.subscription sub).subscriber ∨ mine (reg.subscription sub).target) :
    Leaves mine reg (unlinkSubscription sub reg) := by
  have object := unlinkSubscription_object reg linked.distinct
  refine ⟨fun other live _ => ⟨live, ?_, fun _ _ => rfl, fun _ _ => ⟨rfl, rfl⟩⟩, ?_, ?_, rfl,
    fun _ => ⟨rfl, rfl⟩⟩
  · rw [object other]
  · rintro other ⟨target, live, member⟩
    refine ⟨⟨target, live, ?_⟩, rfl⟩
    rw [object target] at member
    simp only at member
    split at member
    · exact List.mem_of_mem_erase member
    · exact member
  · rintro other ⟨target, live, member⟩
    by_cases same : other = sub
    · exact Or.inr (same ▸ is)
    refine Or.inl ⟨target, live, ?_⟩
    rw [object target]
    simp only
    split
    · exact (List.mem_erase_of_ne same).mpr member
    · exact member

end Leaves

/-! ### Removing an object -/

section Free

variable {mine : Nat → Prop} {wip : Option Nat} {reg : Registry} {obj : Nat}

/-- What removing an object keeps on the way: the registry is intact, and the object is there. -/
structure Freeing (mine : Nat → Prop) (wip : Option Nat) (obj : Nat) (reg reg' : Registry) : Prop where
  leaves : Leaves mine reg reg'
  good : reg'.Good wip none
  objects : reg'.objects = reg.objects
  client : ∀ other, (reg'.object other).client = (reg.object other).client

theorem Freeing.has {reg' : Registry} (freeing : Freeing mine wip obj reg reg')
    (has : reg.HasObject obj) : reg'.HasObject obj := by
  rw [Registry.HasObject, freeing.objects]
  exact has

theorem Freeing.unlink {reg' : Registry} {sub : Nat} (freeing : Freeing mine wip obj reg reg')
    (linked : Linked reg' sub)
    (is : mine (reg'.subscription sub).subscriber ∨ mine (reg'.subscription sub).target) :
    Freeing mine wip obj reg (unlinkSubscription sub reg') := by
  have same := sameObjects_unlink linked
  exact ⟨freeing.leaves.trans (.unlink linked is),
    good_unlinkSubscription freeing.good linked.hasTarget linked.listed,
    same.objects.trans freeing.objects, fun other => (same.client other).trans (freeing.client other)⟩

theorem freeing_targets (has : reg.HasObject obj) (is : mine obj) :
    ∀ (subs : List Nat) {reg' : Registry}, Freeing mine wip obj reg reg' →
      (reg'.object obj).targetList = subs →
      Freeing mine wip obj reg (reg'.unlinkAll subs) ∧
        ((reg'.unlinkAll subs).object obj).targetList = []
  | [], _, freeing, list => ⟨freeing, list⟩
  | sub :: rest, reg', freeing, list => by
    obtain ⟨linked, subscriber⟩ := freeing.good.linked_of_target (freeing.has has)
      (by rw [list]; exact List.mem_cons_self)
    refine freeing_targets has is rest (freeing.unlink linked (Or.inl (subscriber ▸ is))) ?_
    rw [unlinkSubscription_object reg' linked.distinct]
    simp only [subscriber, if_true, list, List.erase_cons_head]

theorem freeing_subscribers (has : reg.HasObject obj) (is : mine obj) :
    ∀ (subs : List Nat) {reg' : Registry}, Freeing mine wip obj reg reg' →
      (reg'.object obj).targetList = [] → (reg'.object obj).subscribers = subs →
      Freeing mine wip obj reg (reg'.unlinkAll subs) ∧
        ((reg'.unlinkAll subs).object obj).targetList = [] ∧
        ((reg'.unlinkAll subs).object obj).subscribers = []
  | [], _, freeing, targets, list => ⟨freeing, targets, list⟩
  | sub :: rest, reg', freeing, targets, list => by
    obtain ⟨linked, target⟩ := freeing.good.linked_of_subscriber (freeing.has has)
      (by rw [list]; exact List.mem_cons_self)
    have object := unlinkSubscription_object reg' linked.distinct obj
    refine freeing_subscribers has is rest (freeing.unlink linked (Or.inr (target ▸ is))) ?_ ?_
    · rw [object]
      simp only [targets, List.erase_nil, ite_self]
    · rw [object]
      simp only [target, if_true, list, List.erase_cons_head]

theorem freeing_events (has : reg.HasObject obj) (is : mine obj) :
    ∀ (events : List Nat) {reg' : Registry}, Freeing mine wip obj reg reg' →
      (reg'.object obj).events = events →
      Freeing mine wip obj reg (events.foldl ubusdDeleteEventSource reg')
  | [], _, freeing, _ => freeing
  | ev :: rest, reg', freeing, list => by
    obtain ⟨owner, inTree⟩ := freeing.good.patterns.events obj ev (freeing.has has)
      (by rw [list]; exact List.mem_cons_self)
    have erased : Leaves mine reg' (ubusdDeleteEventSource reg' ev) :=
      (Leaves.mapObject (f := fun x => { x with events := x.events.erase ev }) (owner.symm ▸ is)
        fun _ => rfl).trans (.of_records rfl (fun _ => ⟨rfl, rfl⟩) rfl rfl rfl rfl fun _ _ _ _ => ⟨rfl, rfl⟩)
    refine freeing_events has is rest ⟨freeing.leaves.trans erased,
      good_deleteEventSource freeing.good inTree, freeing.objects, fun other => ?_⟩ ?_
    · rw [← freeing.client other]
      exact update_keeps Object.client reg'.object (by rfl) other
    · simp only [ubusdDeleteEventSource, Registry.mapObject, owner, Function.update_self, list,
        List.erase_cons_head]

theorem unrefType_rest (type : Option Nat) (reg : Registry) :
    (unrefType type reg).subscription = reg.subscription ∧
      (unrefType type reg).eventSource = reg.eventSource ∧
      ∀ other, ((unrefType type reg).objType other).id = (reg.objType other).id ∧
        ((unrefType type reg).objType other).methods = (reg.objType other).methods := by
  have keeps : ∀ (type : Nat) (n : Nat) other,
      (Function.update reg.objType type { reg.objType type with refcount := n } other).id =
        (reg.objType other).id ∧
      (Function.update reg.objType type { reg.objType type with refcount := n } other).methods =
        (reg.objType other).methods := fun type n other =>
    ⟨update_keeps ObjType.id reg.objType (by rfl) other,
      update_keeps ObjType.methods reg.objType (by rfl) other⟩
  unfold unrefType
  split
  · exact ⟨rfl, rfl, fun _ => ⟨rfl, rfl⟩⟩
  · unfold ubusUnrefObjectType
    simp only
    split <;> exact ⟨rfl, rfl, keeps _ _⟩

theorem Leaves.dropObject (good : reg.Good wip none) (is : mine obj)
    (subscribers : (reg.object obj).subscribers = []) :
    Leaves mine reg (dropObject obj reg) := by
  obtain ⟨objects, object, clients, client⟩ := dropObject_keeps good obj
  obtain ⟨subscription, eventSource, objType⟩ :=
    unrefType_rest (reg.object obj).type (withoutObject obj reg)
  rw [← dropObject_eq good] at subscription eventSource objType
  rw [withoutObject, unlinkObject_eq] at subscription eventSource objType
  refine ⟨fun other live differs => ⟨?_, by rw [object], fun ev _ => by rw [eventSource],
    fun type _ => objType type⟩, ?_, ?_, clients, client⟩
  · rw [Registry.HasObject, objects, AvlTree.has_delete]
    refine ⟨live, ?_⟩
    rintro rfl
    exact differs is
  · rintro sub ⟨target, live, member⟩
    rw [Registry.HasObject, objects, AvlTree.has_delete] at live
    rw [object] at member
    exact ⟨⟨target, live.1, member⟩, by rw [subscription]⟩
  · rintro sub ⟨target, live, member⟩
    refine Or.inl ⟨target, ?_, by rw [object]; exact member⟩
    rw [Registry.HasObject, objects, AvlTree.has_delete]
    refine ⟨live, ?_⟩
    rintro rfl
    rw [subscribers] at member
    cases member

/-- **Removing an object touches only that object.** -/
theorem Leaves.freeObject (good : reg.Good wip none) (done : ∀ other, wip = some other → other = obj)
    (has : reg.HasObject obj) (is : mine obj) :
    Leaves mine reg (reg.freeObject obj) ∧ (reg.freeObject obj).Ok ∧
      Removed obj reg (reg.freeObject obj) := by
  have start : Freeing mine wip obj reg reg := ⟨.refl reg, good, rfl, fun _ => rfl⟩
  obtain ⟨first, targets⟩ := freeing_targets has is _ start rfl
  unfold Registry.freeObject
  simp only
  generalize reg.unlinkAll _ = one at first targets ⊢
  obtain ⟨second, targets', subscribers⟩ := freeing_subscribers has is _ first targets rfl
  generalize one.unlinkAll _ = two at second targets' subscribers ⊢
  have third : Freeing mine wip obj reg (ubusdEventCleanupObject obj two) :=
    freeing_events has is _ second rfl
  obtain ⟨-, noEvents⟩ := good_eventCleanup second.good (second.has has)
  obtain ⟨events, object⟩ := eventCleanup_object two obj obj
  have subscribers' : ((ubusdEventCleanupObject obj two).object obj).subscribers = [] := by
    rw [object]
    exact subscribers
  have targets'' : ((ubusdEventCleanupObject obj two).object obj).targetList = [] := by
    rw [object]
    exact targets'
  obtain ⟨objects, sameObject, -, -⟩ := dropObject_keeps third.good obj
  refine ⟨third.leaves.trans (.dropObject third.good is subscribers'),
    good_dropObject third.good done (third.has has) subscribers' targets'' noEvents,
    objects.trans (by rw [third.objects]), fun other => ?_⟩
  rw [sameObject]
  exact third.client other

theorem Leaves.freeObjects (objs : List Nat) {reg : Registry} (good : reg.Ok) (nodup : objs.Nodup)
    (live : ∀ obj ∈ objs, reg.HasObject obj ∧ mine obj) :
    Leaves mine reg (objs.foldl (fun reg obj => reg.freeObject obj) reg) := by
  induction objs generalizing reg with
  | nil => exact .refl reg
  | cons obj rest ih =>
    obtain ⟨fresh, nodup⟩ := List.nodup_cons.mp nodup
    obtain ⟨has, is⟩ := live obj List.mem_cons_self
    obtain ⟨leaves, ok, removed⟩ := Leaves.freeObject good (by rintro _ ⟨⟩) has is
    refine leaves.trans (ih ok nodup fun other member => ?_)
    obtain ⟨hasOther, isOther⟩ := live other (List.mem_cons_of_mem _ member)
    refine ⟨?_, isOther⟩
    rw [Registry.HasObject, removed.objects, AvlTree.has_delete]
    refine ⟨hasOther, ?_⟩
    rintro rfl
    exact fresh member

end Free

/-! ### Adding an object -/

section Create

variable {mine : Nat → Prop} {wip : Option Nat} {reg : Registry} {obj : Nat}

theorem Registry.Good.type_ne_brk (good : reg.Good wip extra) (has : reg.objTypes.Has type) :
    type ≠ reg.brk := (good.objTypes.lt_of_has has).ne

theorem Leaves.mapObjType {f : ObjType → ObjType} (id : ∀ x, (f x).id = x.id)
    (methods : ∀ x, (f x).methods = x.methods) : Leaves mine reg (reg.mapObjType type f) :=
  .of_records rfl (fun _ => ⟨rfl, rfl⟩) rfl rfl rfl rfl fun _ other _ _ =>
    ⟨update_keeps ObjType.id reg.objType (id _) other,
      update_keeps ObjType.methods reg.objType (methods _) other⟩

theorem Leaves.unrefType (type : Option Nat) : Leaves mine reg (unrefType type reg) := by
  obtain ⟨objects, object, clients, client⟩ := unrefType_keeps type reg
  obtain ⟨subscription, eventSource, objType⟩ := unrefType_rest type reg
  exact .of_records clients (fun _ => by rw [client]; exact ⟨rfl, rfl⟩) objects object subscription eventSource fun _ other _ _ => objType other

theorem Leaves.newType (good : reg.Good wip extra) (objTypes : AvlTree UInt32) (type : ObjType) :
    Leaves mine reg (Registry.mapObjType reg.brk (fun _ => type)
      { reg with objTypes, brk := reg.brk + 1 }) := by
  refine .of_types good rfl rfl rfl rfl rfl rfl fun other has => ?_
  have same : Function.update reg.objType reg.brk type other = reg.objType other :=
    Function.update_of_ne (good.type_ne_brk has) _ _
  simp only [Registry.mapObjType, same, and_self]

theorem Leaves.createObjType (lib : Libubox) (good : reg.Good wip none) (sig : Bytes)
    (rnd : List UInt32) : Leaves mine reg (ubusCreateObjType lib sig rnd reg).2.2 := by
  unfold ubusCreateObjType
  rcases result : ubusAllocId reg.objTypes reg.brk rnd with ⟨_ | ⟨id, objTypes⟩, rest⟩
  · simp only [result]
    exact .refl reg
  simp only [result]
  split
  · exact (Leaves.newType good objTypes _).trans (.unrefType (some reg.brk))
  · exact .newType good objTypes _

theorem Leaves.objectType (lib : Libubox) (good : reg.Good wip none) (attr : Attrs)
    (rnd : List UInt32) : Leaves mine reg (objectType lib attr rnd reg).2.2 := by
  unfold Ubus.objectType
  split
  · simp only [ubusGetObjType]
    split
    · exact .refl reg
    · exact .mapObjType (f := fun type => { type with refcount := type.refcount + 1 }) (fun _ => rfl)
        fun _ => rfl
  · exact .createObjType lib good _ rnd
  · exact .refl reg

theorem Leaves.newObject (good : reg.Good wip extra) (type : Option Nat) (id : UInt32) :
    Leaves mine reg (newObject id (reg.objects.insert id reg.brk) type reg) := by
  have made : Leaves mine reg (Registry.mapObject reg.brk (fun _ => { id, type })
      { reg with objects := reg.objects.insert id reg.brk, brk := reg.brk + 1 }) := by
    have object : ∀ obj, reg.HasObject obj →
        Function.update reg.object reg.brk { id, type } obj = reg.object obj :=
      fun obj has => good.withObject_of_has has
    refine ⟨fun obj live _ => ⟨AvlTree.has_insert.mpr (Or.inr live), ?_, fun _ _ => rfl,
      fun _ _ => ⟨rfl, rfl⟩⟩, ?_, ?_, rfl, fun _ => ⟨rfl, rfl⟩⟩
    · simp only [Registry.mapObject, object obj live]
    · rintro sub ⟨target, live, member⟩
      rcases AvlTree.has_insert.mp live with rfl | live
      · simp [Registry.mapObject] at member
      · simp only [Registry.mapObject, object target live] at member
        exact ⟨⟨target, live, member⟩, rfl⟩
    · rintro sub ⟨target, live, member⟩
      refine Or.inl ⟨target, AvlTree.has_insert.mpr (Or.inr live), ?_⟩
      simp only [Registry.mapObject, object target live]
      exact member
  unfold Ubus.newObject
  simp only
  split
  · exact made
  · exact made.trans (.mapObjType (by exact fun _ => rfl) (by exact fun _ => rfl))

theorem Leaves.allocObject (lib : Libubox) (good : reg.Ok) (attr : Attrs) (rnd : List UInt32) :
    Leaves mine reg (allocObject lib attr rnd reg).2.2 ∧
      ∀ obj, (allocObject lib attr rnd reg).1 = some obj → ¬ reg.HasObject obj := by
  have typed : Leaves mine reg (Ubus.objectType lib attr rnd reg).2.2 := .objectType lib good attr rnd
  have live : ∀ obj, reg.HasObject obj → (Ubus.objectType lib attr rnd reg).2.2.HasObject obj :=
    fun obj has => ((Leaves.objectType lib good attr rnd : Leaves (fun _ => False) _ _).object obj has
      id).live
  have good' := good_objectType lib good attr rnd
  unfold Ubus.allocObject ubusdCreateObjectInternal
  simp only
  generalize Ubus.objectType lib attr rnd reg = result at typed good' live ⊢
  obtain ⟨type, rnd', reg'⟩ := result
  rcases result : ubusAllocId reg'.objects reg'.brk rnd' with ⟨_ | ⟨id, objects⟩, rest⟩
  · exact ⟨typed.trans (.unrefType type), by rintro _ ⟨⟩⟩
  obtain ⟨-, rfl, -⟩ := ubusAllocId_some result
  refine ⟨(typed.trans (.newObject good' type id)).trans (.unrefType type), ?_⟩
  rintro obj ⟨⟩ has
  exact good'.not_has_brk (live _ has)

theorem Leaves.insertPath (is : mine obj) {key : CString} {after : Registry}
    (inserted : insertPath obj key reg = some after) : Leaves mine reg after := by
  obtain ⟨path, -, rfl⟩ := Option.map_eq_some_iff.mp inserted
  exact (Leaves.mapObject (f := fun x => { x with path := some key }) is fun _ => rfl).trans
    (.of_records rfl (fun _ => ⟨rfl, rfl⟩) rfl rfl rfl rfl fun _ _ _ _ => ⟨rfl, rfl⟩)

theorem Leaves.linkObject (is : mine obj) (cl : Nat) : Leaves mine reg (linkObject cl obj reg) :=
  (Leaves.mapObject (f := fun x => { x with client := some cl }) is fun _ => rfl).trans
    (.of_records rfl (fun owner => linkObject_client cl obj owner reg) rfl rfl rfl rfl fun _ _ _ _ => ⟨rfl, rfl⟩)

/-- **Adding an object touches nothing that was there.** -/
theorem Leaves.createObject (lib : Libubox) (good : reg.Ok) {cl : Nat} (attr : Attrs)
    (rnd : List UInt32) :
    Leaves (fun obj => ¬ reg.HasObject obj) reg (reg.createObject lib cl attr rnd).2 := by
  obtain ⟨good', clients, -, pathless⟩ := good_allocObject lib good attr rnd
  obtain ⟨alloc, fresh⟩ : Leaves (fun obj => ¬ reg.HasObject obj) _ _ ∧ _ :=
    Leaves.allocObject lib good attr rnd
  unfold Registry.createObject
  generalize Ubus.allocObject lib attr rnd reg = result at good' clients pathless alloc fresh ⊢
  obtain ⟨_ | obj, rnd', reg'⟩ := result
  · exact alloc
  have is := fresh obj rfl
  have has : reg'.HasObject obj := (good'.owners.made obj rfl).1
  have freed := alloc.trans (Leaves.freeObject good'
    (fun _ same => (Option.some.inj same).symm) has is).1
  have linked : ∀ after : Registry, Leaves (fun obj => ¬ reg.HasObject obj) reg after →
      Leaves (fun obj => ¬ reg.HasObject obj) reg (Ubus.linkObject cl obj after) :=
    fun after leaves => leaves.trans (.linkObject is cl)
  simp only
  split
  · exact linked reg' alloc
  split
  · exact freed
  split
  · exact freed
  · rename_i after inserted
    exact linked after (alloc.trans (.insertPath is inserted))

end Create

/-! ### What a client can do -/

section Untouched

variable {lib : Libubox} {cl : Nat} {reg reg' : Registry} {s : State}

/-- **What belongs to others stays**: objects of other clients and of the system, with their patterns in
the tree; a new subscription has a subscriber of the client's, one that ended had an end of the
client's; other clients keep their id and credentials. -/
structure Untouched (cl : Nat) (reg reg' : Registry) : Prop where
  object : ∀ obj, reg.HasObject obj → (reg.object obj).client ≠ some cl → SameObject reg reg' obj ∧
    ∀ ev ∈ (reg.object obj).events, reg'.patterns.Has ev
  added : ∀ sub, reg'.HasSub sub →
    (reg.HasSub sub ∧ reg'.subscription sub = reg.subscription sub) ∨
      (reg'.object (reg'.subscription sub).subscriber).client = some cl
  ended : ∀ sub, reg.HasSub sub → reg'.HasSub sub ∨
    (reg.object (reg.subscription sub).subscriber).client = some cl ∨
      (reg.object (reg.subscription sub).target).client = some cl
  client : ∀ other, other ≠ cl → reg.HasClient other → reg'.HasClient other ∧
    (reg'.client other).id = (reg.client other).id ∧ (reg'.client other).cred = (reg.client other).cred

theorem Registry.Good.sub_ends {wip : Option Nat} (good : reg.Good wip none) {sub : Nat}
    (has : reg.HasSub sub) : reg.HasObject (reg.subscription sub).subscriber ∧
      reg.HasObject (reg.subscription sub).target := by
  obtain ⟨obj, live, member⟩ := has
  obtain ⟨linked, -⟩ := good.linked_of_subscriber live member
  exact ⟨linked.hasSubscriber, linked.hasTarget⟩

theorem SameObject.patterns {obj : Nat} (same : SameObject reg reg' obj) (good' : reg'.Ok) :
    ∀ ev ∈ (reg.object obj).events, reg'.patterns.Has ev := by
  intro ev member
  refine (good'.patterns.events obj ev same.live ?_).2
  rw [same.same]
  exact member

theorem Leaves.untouched {mine : Nat → Prop} (leaves : Leaves mine reg reg') (good : reg.Ok)
    (good' : reg'.Ok)
    (own : ∀ obj, reg.HasObject obj → mine obj → (reg.object obj).client = some cl) :
    Untouched cl reg reg' := by
  refine ⟨fun obj has other => ?_, fun sub has => Or.inl (leaves.subs sub has), fun sub has => ?_,
    fun other _ has => ⟨?_, leaves.client other⟩⟩
  · have same := leaves.object obj has fun is => other (own obj has is)
    exact ⟨same, same.patterns good'⟩
  · obtain ⟨hasSubscriber, hasTarget⟩ := good.sub_ends has
    exact (leaves.ended sub has).imp_right (Or.imp (own _ hasSubscriber) (own _ hasTarget))
  · rw [Registry.HasClient, leaves.clients]
    exact has

theorem Leaves.newEventSource {mine : Nat → Prop} (good : reg.Ok) {obj : Nat} (is : mine obj)
    (key : CString) (isPartial : Bool) : Leaves mine reg (newEventSource obj key isPartial reg) := by
  have mapped : Leaves mine reg (reg.mapObject obj fun x => { x with events := reg.brk :: x.events }) :=
    .mapObject is fun _ => rfl
  refine ⟨fun other live differs => ?_, mapped.subs, mapped.ended, rfl, fun _ => ⟨rfl, rfl⟩⟩
  obtain ⟨live', same, -, contents⟩ := mapped.object other live differs
  refine ⟨live', same, fun ev member => Function.update_of_ne ?_ _ _, contents⟩
  rintro rfl
  obtain ⟨node, inside, here⟩ := List.mem_map.mp (good.patterns.events other _ live member).2
  exact absurd (good.patterns.below node inside) (by rw [here]; exact lt_irrefl _)

theorem newSubscription_untouched {obj target owner : Nat}
    (good' : (newSubscription obj target reg).Ok) (mine : (reg.object obj).client = some cl)
    (owned : (reg.object target).client = some owner) (differs : cl ≠ owner) :
    Untouched cl reg (newSubscription obj target reg) := by
  have distinct : obj ≠ target := by
    rintro rfl
    rw [mine] at owned
    exact differs (Option.some.inj owned)
  have object := newSubscription_object reg distinct
  have same : ∀ other, reg.HasObject other → SameObject reg (newSubscription obj target reg) other :=
    fun other live => ⟨live, by rw [object other], fun _ _ => rfl, fun _ _ => ⟨rfl, rfl⟩⟩
  refine ⟨fun other live _ => ⟨same other live, (same other live).patterns good'⟩, ?_, ?_,
    fun _ _ has => ⟨has, rfl, rfl⟩⟩
  · rintro sub ⟨other, live, member⟩
    have live : reg.HasObject other := live
    by_cases new : sub = reg.brk
    · subst new
      right
      have here : (newSubscription obj target reg).subscription reg.brk = ⟨obj, target⟩ :=
        Function.update_self ..
      rw [here, object obj]
      exact mine
    · left
      have old : sub ∈ (reg.object other).subscribers := by
        rw [object other] at member
        simp only at member
        split at member
        · exact (List.mem_cons.mp member).resolve_left new
        · exact member
      exact ⟨⟨other, live, old⟩, Function.update_of_ne new _ _⟩
  · rintro sub ⟨other, live, member⟩
    refine Or.inl ⟨other, live, ?_⟩
    rw [object other]
    simp only
    split
    · exact List.mem_cons_of_mem _ member
    · exact member

theorem Effect.untouched (effect : Effect lib cl reg reg') (good : reg.Ok) (good' : reg'.Ok) :
    Untouched cl reg reg' := by
  cases effect with
  | same =>
    exact (Leaves.refl reg : Leaves (fun _ => False) reg reg).untouched good good'
      fun _ _ => False.elim
  | created attr rnd =>
    exact (Leaves.createObject lib good attr rnd).untouched good good'
      fun obj has absent => absurd has absent
  | @freed obj has mine =>
    have leaves : Leaves (Eq obj) reg (reg.freeObject obj) :=
      (Leaves.freeObject good (by rintro _ ⟨⟩) has rfl).1
    refine leaves.untouched good good' ?_
    rintro other - rfl
    exact mine
  | @unsubscribed obj sub has mine listed =>
    obtain ⟨linked, subscriber⟩ := good.linked_of_target has listed
    have leaves : Leaves (Eq obj) reg (unlinkSubscription sub reg) :=
      Leaves.unlink linked (Or.inl subscriber.symm)
    refine leaves.untouched good good' ?_
    rintro other - rfl
    exact mine
  | @registered obj has mine key isPartial =>
    have leaves : Leaves (Eq obj) reg (Ubus.newEventSource obj key isPartial reg) :=
      Leaves.newEventSource good rfl key isPartial
    refine leaves.untouched good good' ?_
    rintro other - rfl
    exact mine
  | subscribed _ mine _ owned differs =>
    exact newSubscription_untouched good' mine owned differs

theorem disconnect_untouched (good : reg.Ok) (good' : (reg.disconnect cl).Ok)
    (known : reg.HasClient cl) : Untouched cl reg (reg.disconnect cl) := by
  have leaves : Leaves (fun obj => (reg.object obj).client = some cl) reg
      ((reg.client cl).objects.foldl (fun reg obj => reg.freeObject obj) reg) :=
    .freeObjects _ good (good.owners.nodup cl known) fun obj member =>
      (good.owners.listed cl obj known).mp member
  refine ⟨fun obj has other => ?_, fun sub has => Or.inl (leaves.subs sub has), leaves.ended,
    fun other differs has => ⟨?_, leaves.client other⟩⟩
  · obtain ⟨live, same, source, contents⟩ := leaves.object obj has other
    have same' : SameObject reg (reg.disconnect cl) obj := ⟨live, same, source, contents⟩
    exact ⟨same', same'.patterns good'⟩
  · refine AvlTree.has_delete.mpr ⟨?_, differs⟩
    rw [leaves.clients]
    exact has

/-- **Clients cannot disturb what they do not own.** A message of a client that is handled, and its
disconnect, leave the objects of others alone, add only subscriptions of the client's own objects, end
only those with an end of the client's, and keep monitors, queued commands and credentials of the
others, whose transmit queues are only appended to. -/
theorem clients_isolated (lib : Libubox) (cl : Nat) :
    (∀ ub s, Handles lib cl ub s →
      Untouched cl s.reg (ubusdProtoReceiveMessage lib cl ub s).reg ∧
        Apart cl s (ubusdProtoReceiveMessage lib cl ub s)) ∧
    ∀ s, Reachable lib s → s.reg.HasClient cl →
      Untouched cl s.reg (handleClientDisconnect lib cl s).reg ∧
        Apart cl s (handleClientDisconnect lib cl s) := by
  refine ⟨fun ub s handles => ?_, fun s reachable known => ?_⟩
  · have ctx := handles.processing
    have deals := deals_receiveMessage lib cl ub s
    have inv := (receiveMessage_spec lib ctx).1
    exact ⟨deals.effect.untouched ctx.inv.good inv.good, deals.apart⟩
  · obtain ⟨apart, reg⟩ := apart_disconnect lib s
    have inv := (disconnect_spec reachable.inv known).1
    refine ⟨?_, apart⟩
    rw [reg]
    exact disconnect_untouched reachable.inv.good (reg ▸ inv.good) known

/-- A client asks for the removal of an object of another client; the request is not read yet. -/
def foreignRun : List Input :=
  [connects rootCred 5000, receives 3 (Blob.message .addObject 1 0 []) false, connects rootCred 6000,
    { action := .client 5 false false (Blob.message .removeObject 1 0 [.int32 .objid 4001]) []
        [.got 11 false, .again] }]

theorem clients_isolated_foreign : ∃ s t, s = run Blob.libubox foreignRun State.init ∧
    Handles Blob.libubox 5 6 t ∧ t.reg.HasObject 4 ∧ (t.reg.object 4).client = some 3 ∧
    SameObject t.reg (ubusdProtoReceiveMessage Blob.libubox 5 6 t).reg 4 ∧
    SameObject s.reg (handleClientDisconnect Blob.libubox 5 s).reg 4 := by
  have reachable := reachable_run Blob.libubox foreignRun
  have known : (run Blob.libubox foreignRun State.init).reg.HasClient 5 := by decide +kernel
  have handles : Handles Blob.libubox 5 6 _ := .read 8 reachable known (by decide +kernel)
    (by decide +kernel)
  obtain ⟨received, gone⟩ := clients_isolated Blob.libubox 5
  refine ⟨_, _, rfl, handles, ?_, ?_, ((received 6 _ handles).1.object 4 ?_ ?_).1,
    ((gone _ reachable known).1.object 4 ?_ ?_).1⟩
  all_goals decide +kernel

end Untouched

end Ubus
