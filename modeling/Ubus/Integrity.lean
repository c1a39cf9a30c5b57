/-
**Referential integrity of the registry.**

`Registry.Good` says how the structures of the daemon fit together: which records are in the trees,
who owns them, and that links in one direction have their counterpart in the other. It is split by
the structure a part speaks about, so that an operation has to be looked at only where it acts.

* `wip` names an object that is being created and has no owner yet, `extra` a type that the code
  holds a reference to; both are `none` between two messages (`Registry.Ok`).
* `good_…`: every operation on event patterns and subscriptions keeps it.
-/

import Ubus.Proto

namespace Ubus

open Lib

variable {obj sub k ev cl target : Nat} {β : Type}

/-- The id of a system object. -/
def RecvMsg.id : RecvMsg → UInt32
  | .event => ubusSystemObjectEvent
  | .acl => ubusSystemObjectAcl
  | .monitor => ubusSystemObjectMonitor

/-- Objects and their owners. -/
structure Owners (wip : Option Nat) (clients objects : AvlTree UInt32) (client : Nat → Client)
    (object : Nat → Object) : Prop where
  owned : ∀ obj cl, objects.Has obj → (object obj).client = some cl →
    clients.Has cl ∧ ubusSystemObjectMax ≤ (object obj).id
  unowned : ∀ obj, objects.Has obj → (object obj).client = none →
    (∃ recv, (object obj).recvMsg = some recv ∧ (object obj).id = recv.id) ∨ wip = some obj
  made : ∀ obj, wip = some obj → objects.Has obj ∧ (object obj).client = none ∧
    ubusSystemObjectMax ≤ (object obj).id
  listed : ∀ cl obj, clients.Has cl →
    (obj ∈ (client cl).objects ↔ objects.Has obj ∧ (object obj).client = some cl)
  nodup : ∀ cl, clients.Has cl → (client cl).objects.Nodup

/-- Objects of a type. -/
def typeUses (objects : AvlTree UInt32) (object : Nat → Object) (type : Nat) : Nat :=
  objects.countP fun node => (object node.2).type = some type

/-- Types and the objects that use them. -/
structure Types (extra : Option Nat) (objects objTypes : AvlTree UInt32) (object : Nat → Object)
    (objType : Nat → ObjType) : Prop where
  known : ∀ obj type, objects.Has obj → (object obj).type = some type → objTypes.Has type
  held : ∀ type, extra = some type → objTypes.Has type
  refcount : ∀ type, objTypes.Has type → (objType type).refcount =
    typeUses objects object type + if extra = some type then 1 else 0
  positive : ∀ type, objTypes.Has type → 0 < (objType type).refcount

/-- Paths and the objects registered under them. -/
structure Paths (objects : AvlTree UInt32) (path : AvlTree CString) (object : Nat → Object) : Prop where
  sorted : path.Sorted
  unique : path.UniqueKeys
  mem_iff : ∀ key obj, (key, obj) ∈ path ↔ objects.Has obj ∧ (object obj).path = some key

/-- Subscriptions are in both lists, between objects of different clients. -/
structure Subs (objects : AvlTree UInt32) (object : Nat → Object) (subscription : Nat → Subscription)
    (brk : Nat) : Prop where
  subscribers : ∀ obj sub, objects.Has obj → sub ∈ (object obj).subscribers →
    (subscription sub).target = obj ∧ objects.Has (subscription sub).subscriber ∧
      sub ∈ (object (subscription sub).subscriber).targetList
  targets : ∀ obj sub, objects.Has obj → sub ∈ (object obj).targetList →
    (subscription sub).subscriber = obj ∧ objects.Has (subscription sub).target ∧
      sub ∈ (object (subscription sub).target).subscribers
  owners : ∀ obj sub, objects.Has obj → sub ∈ (object obj).subscribers → ∃ cl owner,
    (object (subscription sub).subscriber).client = some cl ∧
      (object obj).client = some owner ∧ cl ≠ owner
  nodupSubscribers : ∀ obj, objects.Has obj → (object obj).subscribers.Nodup
  nodupTargets : ∀ obj, objects.Has obj → (object obj).targetList.Nodup
  below : ∀ obj sub, objects.Has obj → sub ∈ (object obj).subscribers → sub < brk

/-- Event patterns and the objects they belong to. -/
structure Patterns (objects : AvlTree UInt32) (object : Nat → Object) (eventSource : Nat → EventSource)
    (patterns : AvlTree CString) (brk : Nat) : Prop where
  sorted : patterns.Sorted
  addrs : (patterns.map Prod.snd).Nodup
  below : ∀ node ∈ patterns, node.2 < brk
  events : ∀ obj ev, objects.Has obj → ev ∈ (object obj).events →
    (eventSource ev).obj = obj ∧ patterns.Has ev
  owner : ∀ node ∈ patterns, node.1 = (eventSource node.2).key ∧
    objects.Has (eventSource node.2).obj ∧ node.2 ∈ (object (eventSource node.2).obj).events ∧
      ∃ cl, (object (eventSource node.2).obj).client = some cl
  nodup : ∀ obj, objects.Has obj → (object obj).events.Nodup

/-- **The registry fits together.** -/
structure Registry.Good (wip extra : Option Nat) (reg : Registry) : Prop where
  clients : reg.clients.Keyed (fun cl => (reg.client cl).id) reg.brk
  objects : reg.objects.Keyed (fun obj => (reg.object obj).id) reg.brk
  objTypes : reg.objTypes.Keyed (fun type => (reg.objType type).id) reg.brk
  clientIds : ∀ node ∈ reg.clients, ubusSystemObjectMax ≤ node.1
  typeIds : ∀ node ∈ reg.objTypes, ubusSystemObjectMax ≤ node.1
  owners : Owners wip reg.clients reg.objects reg.client reg.object
  types : Types extra reg.objects reg.objTypes reg.object reg.objType
  paths : Paths reg.objects reg.path reg.object
  subs : Subs reg.objects reg.object reg.subscription reg.brk
  patterns : Patterns reg.objects reg.object reg.eventSource reg.patterns reg.brk
  acl : reg.acl.Consistent

/-- The registry between two messages. -/
def Registry.Ok (reg : Registry) : Prop := reg.Good none none

/-! ### Parts that an operation does not touch -/

section Congr

variable {wip extra : Option Nat} {clients objects objTypes : AvlTree UInt32} {client : Nat → Client}
  {object object' : Nat → Object} {objType : Nat → ObjType} {path patterns : AvlTree CString}
  {subscription : Nat → Subscription} {eventSource : Nat → EventSource} {brk brk' : Nat}

theorem Owners.congr (owners : Owners wip clients objects client object)
    (same : ∀ obj, (object' obj).client = (object obj).client)
    (id : ∀ obj, (object' obj).id = (object obj).id)
    (recv : ∀ obj, (object' obj).recvMsg = (object obj).recvMsg) :
    Owners wip clients objects client object' := by
  refine ⟨?_, ?_, ?_, ?_, owners.nodup⟩
  · intro obj cl has owner
    rw [id]
    exact owners.owned obj cl has (same obj ▸ owner)
  · intro obj has owner
    rw [id, recv]
    exact owners.unowned obj has (same obj ▸ owner)
  · intro obj isWip
    rw [id, same]
    exact owners.made obj isWip
  · intro cl obj has
    rw [same]
    exact owners.listed cl obj has

theorem Types.congr (types : Types extra objects objTypes object objType)
    (same : ∀ obj, (object' obj).type = (object obj).type) :
    Types extra objects objTypes object' objType := by
  have uses : ∀ type, typeUses objects object' type = typeUses objects object type := fun type => by
    simp only [typeUses, same]
  refine ⟨?_, types.held, ?_, types.positive⟩
  · intro obj type has ofType
    exact types.known obj type has (same obj ▸ ofType)
  · intro type has
    rw [uses]
    exact types.refcount type has

theorem Paths.congr (paths : Paths objects path object)
    (same : ∀ obj, (object' obj).path = (object obj).path) : Paths objects path object' := by
  refine ⟨paths.sorted, paths.unique, fun key obj => ?_⟩
  rw [same]
  exact paths.mem_iff key obj

theorem Subs.congr (subs : Subs objects object subscription brk)
    (subscribers : ∀ obj, (object' obj).subscribers = (object obj).subscribers)
    (targets : ∀ obj, (object' obj).targetList = (object obj).targetList)
    (owned : ∀ obj cl, (object obj).client = some cl → (object' obj).client = some cl)
    (more : brk ≤ brk') :
    Subs objects object' subscription brk' := by
  refine ⟨?_, ?_, ?_, ?_, ?_, ?_⟩
  · intro obj sub has member
    rw [targets]
    exact subs.subscribers obj sub has (subscribers obj ▸ member)
  · intro obj sub has member
    rw [subscribers]
    exact subs.targets obj sub has (targets obj ▸ member)
  · intro obj sub has member
    obtain ⟨cl, owner, one, two, differ⟩ := subs.owners obj sub has (subscribers obj ▸ member)
    exact ⟨cl, owner, owned _ _ one, owned _ _ two, differ⟩
  · intro obj has
    rw [subscribers]
    exact subs.nodupSubscribers obj has
  · intro obj has
    rw [targets]
    exact subs.nodupTargets obj has
  · intro obj sub has member
    exact lt_of_lt_of_le (subs.below obj sub has (subscribers obj ▸ member)) more

theorem Patterns.congr (ok : Patterns objects object eventSource patterns brk)
    (events : ∀ obj, (object' obj).events = (object obj).events)
    (owned : ∀ obj cl, (object obj).client = some cl → (object' obj).client = some cl)
    (more : brk ≤ brk') :
    Patterns objects object' eventSource patterns brk' := by
  refine ⟨ok.sorted, ok.addrs, fun node member => lt_of_lt_of_le (ok.below node member) more,
    ?_, ?_, ?_⟩
  · intro obj ev has member
    exact ok.events obj ev has (events obj ▸ member)
  · intro node member
    obtain ⟨key, has, listed, cl, owner⟩ := ok.owner node member
    rw [events]
    exact ⟨key, has, listed, cl, owned _ _ owner⟩
  · intro obj has
    rw [events]
    exact ok.nodup obj has

end Congr

theorem mapObject_keeps (g : Object → β) {f : Object → Object} (keeps : ∀ x, g (f x) = g x)
    (reg : Registry) (k obj : Nat) :
    g (Function.update reg.object k (f (reg.object k)) obj) = g (reg.object obj) :=
  update_keeps g reg.object (keeps _) obj

/-! ### Event patterns -/

section Patterns

variable {wip extra : Option Nat} {reg : Registry}

theorem good_events (good : reg.Good wip extra) (events : List Nat → List Nat)
    {eventSource : Nat → EventSource} {patterns : AvlTree CString} {brk : Nat}
    (more : reg.brk ≤ brk)
    (ok : Patterns reg.objects (Function.update reg.object k { reg.object k with events := events (reg.object k).events }) eventSource patterns brk) :
    Registry.Good wip extra { reg with
      object := Function.update reg.object k
        { reg.object k with events := events (reg.object k).events }
      eventSource, patterns, brk } := by
  have keeps {β : Type} (g : Object → β) (same : ∀ x : Object,
      g { x with events := events x.events } = g x) := mapObject_keeps g same reg k
  exact {
    clients := good.clients.congr (fun _ _ => rfl) more
    objects := good.objects.congr (fun obj _ => keeps Object.id (fun _ => rfl) obj) more
    objTypes := good.objTypes.congr (fun _ _ => rfl) more
    clientIds := good.clientIds
    typeIds := good.typeIds
    owners := good.owners.congr (keeps Object.client fun _ => rfl) (keeps Object.id fun _ => rfl)
      (keeps Object.recvMsg fun _ => rfl)
    types := good.types.congr (keeps Object.type fun _ => rfl)
    paths := good.paths.congr (keeps Object.path fun _ => rfl)
    subs := good.subs.congr (keeps Object.subscribers fun _ => rfl)
      (keeps Object.targetList fun _ => rfl)
      (fun other _ => (keeps Object.client (fun _ => rfl) other).trans) more
    patterns := ok
    acl := good.acl }

theorem Patterns.owner_of_has {objects : AvlTree UInt32} {object : Nat → Object}
    {eventSource : Nat → EventSource} {patterns : AvlTree CString} {brk : Nat}
    (ok : Patterns objects object eventSource patterns brk) (has : patterns.Has ev) :
    objects.Has (eventSource ev).obj ∧ ev ∈ (object (eventSource ev).obj).events := by
  obtain ⟨node, member, rfl⟩ := List.mem_map.mp has
  obtain ⟨-, hasObj, listed, -⟩ := ok.owner node member
  exact ⟨hasObj, listed⟩

theorem good_deleteEventSource (good : reg.Good wip extra) (has : reg.patterns.Has ev) :
    (ubusdDeleteEventSource reg ev).Good wip extra := by
  obtain ⟨hasObj, listed⟩ := good.patterns.owner_of_has has
  refine good_events good (fun events => events.erase ev) le_rfl
    ⟨AvlTree.sorted_delete good.patterns.sorted,
      List.Nodup.sublist (List.Sublist.map _ List.filter_sublist) good.patterns.addrs,
      fun node member => good.patterns.below node (AvlTree.mem_delete.mp member).1, ?_, ?_, ?_⟩
  · intro obj other hasOther member
    rw [Function.update_apply] at member
    split at member
    · rename_i same
      obtain ⟨differs, inside⟩ := (good.patterns.nodup _ hasObj).mem_erase_iff.mp member
      obtain ⟨owner, inTree⟩ := good.patterns.events _ other hasObj inside
      exact ⟨owner.trans same.symm, AvlTree.has_delete.mpr ⟨inTree, differs⟩⟩
    · rename_i differs
      obtain ⟨owner, inTree⟩ := good.patterns.events obj other hasOther member
      refine ⟨owner, AvlTree.has_delete.mpr ⟨inTree, fun same => differs ?_⟩⟩
      rw [← owner, same]
  · intro node member
    obtain ⟨inside, differs⟩ := AvlTree.mem_delete.mp member
    obtain ⟨key, hasNode, inEvents, cl, owner⟩ := good.patterns.owner node inside
    refine ⟨key, hasNode, ?_, cl, ?_⟩
    · rw [Function.update_apply]
      split
      · rename_i same
        rw [show (reg.eventSource node.2).obj = (reg.eventSource ev).obj from same] at inEvents
        exact (List.mem_erase_of_ne differs).mpr inEvents
      · exact inEvents
    · exact (mapObject_keeps Object.client (f := fun x => { x with events := x.events.erase ev })
        (fun _ => rfl) reg _ _).trans owner
  · intro obj hasOther
    rw [Function.update_apply]
    split
    · exact (good.patterns.nodup _ hasObj).erase ev
    · exact good.patterns.nodup obj hasOther

theorem good_eventCleanup (good : reg.Good wip extra) (has : reg.HasObject obj) :
    (ubusdEventCleanupObject obj reg).Good wip extra ∧
      ((ubusdEventCleanupObject obj reg).object obj).events = [] := by
  unfold ubusdEventCleanupObject
  generalize list : (reg.object obj).events = events
  induction events generalizing reg with
  | nil => exact ⟨good, list⟩
  | cons ev rest ih =>
    obtain ⟨owner, inTree⟩ := good.patterns.events obj ev has (by rw [list]; exact List.mem_cons_self)
    refine ih (good_deleteEventSource good inTree) has ?_
    simp [ubusdDeleteEventSource, Registry.mapObject, owner, list]

theorem good_newEventSource (good : reg.Good wip extra) (has : reg.HasObject obj)
    (owner : (reg.object obj).client = some cl) (key : CString) (isPartial : Bool) :
    (newEventSource obj key isPartial reg).Good wip extra := by
  have fresh : ∀ node ∈ reg.patterns, node.2 ≠ reg.brk := fun node member same =>
    absurd (good.patterns.below node member) (by omega)
  have freshEvent : ∀ other ev, reg.HasObject other → ev ∈ (reg.object other).events →
      ev ≠ reg.brk := by
    intro other ev hasOther member same
    obtain ⟨node, inside, rfl⟩ := List.mem_map.mp (good.patterns.events other ev hasOther member).2
    exact fresh node inside same
  refine good_events good (fun events => reg.brk :: events) (Nat.le_succ _)
    ⟨AvlTree.sorted_insert good.patterns.sorted, ?_, ?_, ?_, ?_, ?_⟩
  · refine ((AvlTree.insert_perm key reg.brk reg.patterns).map Prod.snd).nodup_iff.mpr
      (List.nodup_cons.mpr ⟨?_, good.patterns.addrs⟩)
    intro member
    obtain ⟨node, inside, same⟩ := List.mem_map.mp member
    exact fresh node inside same
  · intro node member
    rcases AvlTree.mem_insert.mp member with rfl | member
    · exact Nat.lt_succ_self _
    · exact Nat.lt_succ_of_lt (good.patterns.below node member)
  · intro other ev hasOther member
    rw [Function.update_apply] at member
    by_cases new : ev = reg.brk
    · subst new
      split at member
      · rename_i same
        exact ⟨by simp [same], AvlTree.has_insert.mpr (Or.inl rfl)⟩
      · exact absurd rfl (freshEvent other _ hasOther member)
    · have old : ev ∈ (reg.object other).events := by
        split at member
        · rename_i same
          rw [same]
          exact (List.mem_cons.mp member).resolve_left new
        · exact member
      obtain ⟨belongs, inTree⟩ := good.patterns.events other ev hasOther old
      rw [Function.update_of_ne new]
      exact ⟨belongs, AvlTree.has_insert.mpr (Or.inr inTree)⟩
  · intro node member
    rcases AvlTree.mem_insert.mp member with rfl | member
    · simp only [Function.update_self]
      exact ⟨trivial, has, List.mem_cons_self, cl, owner⟩
    obtain ⟨sameKey, hasNode, inEvents, cl', owner'⟩ := good.patterns.owner node member
    rw [Function.update_of_ne (fresh node member)]
    refine ⟨sameKey, hasNode, ?_, cl', ?_⟩
    · rw [Function.update_apply]
      split
      · rename_i same
        rw [show (reg.eventSource node.2).obj = obj from same] at inEvents
        exact List.mem_cons_of_mem _ inEvents
      · exact inEvents
    · exact (mapObject_keeps Object.client (f := fun x => { x with events := reg.brk :: x.events })
        (fun _ => rfl) reg _ _).trans owner'
  · intro other hasOther
    rw [Function.update_apply]
    split
    · refine List.nodup_cons.mpr ⟨fun member => ?_, good.patterns.nodup obj has⟩
      exact freshEvent obj _ has member rfl
    · exact good.patterns.nodup other hasOther

end Patterns

/-! ### Subscriptions -/

section Subscriptions

variable {wip extra : Option Nat} {reg : Registry}

theorem good_subs (good : reg.Good wip extra) {object : Nat → Object}
    (keeps : ∀ obj, ∃ subscribers targetList,
      object obj = { reg.object obj with subscribers, targetList })
    {subscription : Nat → Subscription} {brk : Nat} (more : reg.brk ≤ brk)
    (ok : Subs reg.objects object subscription brk) :
    Registry.Good wip extra { reg with object, subscription, brk } := by
  have same {β : Type} (g : Object → β) (blind : ∀ (x : Object) subscribers targetList,
      g { x with subscribers, targetList } = g x) (obj : Nat) :
      g (object obj) = g (reg.object obj) := by
    obtain ⟨subscribers, targetList, eq⟩ := keeps obj
    rw [eq, blind]
  exact {
    clients := good.clients.congr (fun _ _ => rfl) more
    objects := good.objects.congr (fun obj _ => same Object.id (fun _ _ _ => rfl) obj) more
    objTypes := good.objTypes.congr (fun _ _ => rfl) more
    clientIds := good.clientIds
    typeIds := good.typeIds
    owners := good.owners.congr (same Object.client fun _ _ _ => rfl)
      (same Object.id fun _ _ _ => rfl) (same Object.recvMsg fun _ _ _ => rfl)
    types := good.types.congr (same Object.type fun _ _ _ => rfl)
    paths := good.paths.congr (same Object.path fun _ _ _ => rfl)
    subs := ok
    patterns := good.patterns.congr (same Object.events fun _ _ _ => rfl)
      (fun other _ => (same Object.client (fun _ _ _ => rfl) other).trans) more
    acl := good.acl }

theorem newSubscription_object (reg : Registry) (differ : obj ≠ target) (other : Nat) :
    (newSubscription obj target reg).object other = { reg.object other with
      subscribers := if other = target then reg.brk :: (reg.object other).subscribers
        else (reg.object other).subscribers
      targetList := if other = obj then reg.brk :: (reg.object other).targetList
        else (reg.object other).targetList } := by
  simp only [newSubscription, Registry.mapObject, Function.update_apply]
  by_cases isObj : other = obj
  · subst isObj
    simp [differ]
  by_cases isTarget : other = target
  · subst isTarget
    simp [isObj]
  · simp [isObj, isTarget]

theorem good_newSubscription (good : reg.Good wip extra) {owner : Nat} (has : reg.HasObject obj)
    (hasTarget : reg.HasObject target) (client : (reg.object obj).client = some cl)
    (client' : (reg.object target).client = some owner) (differ : cl ≠ owner) :
    (newSubscription obj target reg).Good wip extra := by
  have distinct : obj ≠ target := by
    rintro rfl
    rw [client] at client'
    exact differ (Option.some.inj client')
  have object := newSubscription_object reg distinct
  have subscribersOf : ∀ other, ((newSubscription obj target reg).object other).subscribers =
      if other = target then reg.brk :: (reg.object other).subscribers
      else (reg.object other).subscribers := fun other => congrArg Object.subscribers (object other)
  have targetsOf : ∀ other, ((newSubscription obj target reg).object other).targetList =
      if other = obj then reg.brk :: (reg.object other).targetList
      else (reg.object other).targetList := fun other => congrArg Object.targetList (object other)
  have fresh : ∀ other sub, reg.HasObject other → sub ∈ (reg.object other).subscribers →
      sub ≠ reg.brk := fun other sub hasOther member same =>
    absurd (good.subs.below other sub hasOther member) (by omega)
  have fresh' : ∀ other sub, reg.HasObject other → sub ∈ (reg.object other).targetList →
      sub ≠ reg.brk := by
    intro other sub hasOther member
    obtain ⟨-, hasT, listed⟩ := good.subs.targets other sub hasOther member
    exact fresh _ sub hasT listed
  -- an old subscription is in its lists as before
  have subscriber : ∀ other sub, sub ≠ reg.brk →
      (sub ∈ ((newSubscription obj target reg).object other).subscribers ↔
        sub ∈ (reg.object other).subscribers) := by
    intro other sub old
    rw [subscribersOf]
    split <;> simp [old]
  have targeted : ∀ other sub, sub ≠ reg.brk →
      (sub ∈ ((newSubscription obj target reg).object other).targetList ↔
        sub ∈ (reg.object other).targetList) := by
    intro other sub old
    rw [targetsOf]
    split <;> simp [old]
  have newSubscriber : ∀ other, reg.HasObject other →
      (reg.brk ∈ ((newSubscription obj target reg).object other).subscribers ↔ other = target) := by
    intro other hasOther
    rw [subscribersOf]
    split
    · rename_i same
      simp [same]
    · rename_i differs
      exact ⟨fun member => absurd rfl (fresh other _ hasOther member), fun same => absurd same differs⟩
  have newTarget : ∀ other, reg.HasObject other →
      (reg.brk ∈ ((newSubscription obj target reg).object other).targetList ↔ other = obj) := by
    intro other hasOther
    rw [targetsOf]
    split
    · rename_i same
      simp [same]
    · rename_i differs
      exact ⟨fun member => absurd rfl (fresh' other _ hasOther member), fun same => absurd same differs⟩
  have client'' : ∀ other, ((newSubscription obj target reg).object other).client =
      (reg.object other).client := fun other => by rw [object]
  have new : (newSubscription obj target reg).subscription reg.brk = { subscriber := obj, target } :=
    Function.update_self _ _ _
  have old : ∀ sub, sub ≠ reg.brk →
      (newSubscription obj target reg).subscription sub = reg.subscription sub := fun sub differs =>
    Function.update_of_ne differs _ _
  suffices ok : Subs reg.objects (newSubscription obj target reg).object
      (newSubscription obj target reg).subscription (reg.brk + 1) from
    good_subs good (fun other => ⟨_, _, object other⟩) (Nat.le_succ _) ok
  refine ⟨?_, ?_, ?_, ?_, ?_, ?_⟩
  · intro other sub hasOther member
    by_cases isNew : sub = reg.brk
    · subst isNew
      rw [new]
      exact ⟨((newSubscriber other hasOther).mp member).symm, has, (newTarget obj has).mpr rfl⟩
    · rw [old sub isNew]
      obtain ⟨isTarget, hasSub, listed⟩ :=
        good.subs.subscribers other sub hasOther ((subscriber other sub isNew).mp member)
      exact ⟨isTarget, hasSub, (targeted _ sub isNew).mpr listed⟩
  · intro other sub hasOther member
    by_cases isNew : sub = reg.brk
    · subst isNew
      rw [new]
      exact ⟨((newTarget other hasOther).mp member).symm, hasTarget,
        (newSubscriber target hasTarget).mpr rfl⟩
    · rw [old sub isNew]
      obtain ⟨isSub, hasT, listed⟩ :=
        good.subs.targets other sub hasOther ((targeted other sub isNew).mp member)
      exact ⟨isSub, hasT, (subscriber _ sub isNew).mpr listed⟩
  · intro other sub hasOther member
    rw [client'', client'']
    by_cases isNew : sub = reg.brk
    · subst isNew
      obtain rfl := (newSubscriber other hasOther).mp member
      rw [new]
      exact ⟨cl, owner, client, client', differ⟩
    · rw [old sub isNew]
      exact good.subs.owners other sub hasOther ((subscriber other sub isNew).mp member)
  · intro other hasOther
    rw [subscribersOf]
    split
    · exact List.nodup_cons.mpr ⟨fun member => fresh other _ hasOther member rfl,
        good.subs.nodupSubscribers other hasOther⟩
    · exact good.subs.nodupSubscribers other hasOther
  · intro other hasOther
    rw [targetsOf]
    split
    · exact List.nodup_cons.mpr ⟨fun member => fresh' other _ hasOther member rfl,
        good.subs.nodupTargets other hasOther⟩
    · exact good.subs.nodupTargets other hasOther
  · intro other sub hasOther member
    by_cases isNew : sub = reg.brk
    · rw [isNew]
      exact Nat.lt_succ_self _
    · exact Nat.lt_succ_of_lt
        (good.subs.below other sub hasOther ((subscriber other sub isNew).mp member))

theorem unlinkSubscription_object (reg : Registry)
    (differ : (reg.subscription sub).subscriber ≠ (reg.subscription sub).target) (other : Nat) :
    (unlinkSubscription sub reg).object other = { reg.object other with
      subscribers := if other = (reg.subscription sub).target then
        (reg.object other).subscribers.erase sub else (reg.object other).subscribers
      targetList := if other = (reg.subscription sub).subscriber then
        (reg.object other).targetList.erase sub else (reg.object other).targetList } := by
  simp only [unlinkSubscription, Registry.mapObject, Function.update_apply]
  by_cases isSub : other = (reg.subscription sub).subscriber
  · subst isSub
    simp [differ]
  by_cases isTarget : other = (reg.subscription sub).target
  · subst isTarget
    simp [isSub]
  · simp [isSub, isTarget]

theorem Subs.endpoints {objects : AvlTree UInt32} {object : Nat → Object}
    {subscription : Nat → Subscription} {brk : Nat} (subs : Subs objects object subscription brk)
    (has : objects.Has obj) (member : sub ∈ (object obj).subscribers) :
    (subscription sub).subscriber ≠ (subscription sub).target := by
  obtain ⟨isTarget, -, -⟩ := subs.subscribers obj sub has member
  obtain ⟨cl, owner, client, client', differ⟩ := subs.owners obj sub has member
  intro same
  rw [same, isTarget, client'] at client
  exact differ (Option.some.inj client.symm)

theorem good_unlinkSubscription (good : reg.Good wip extra) (has : reg.HasObject obj)
    (member : sub ∈ (reg.object obj).subscribers) :
    (unlinkSubscription sub reg).Good wip extra := by
  have distinct := good.subs.endpoints has member
  have object := unlinkSubscription_object reg distinct
  have subscribersOf : ∀ other, ((unlinkSubscription sub reg).object other).subscribers =
      if other = (reg.subscription sub).target then (reg.object other).subscribers.erase sub
      else (reg.object other).subscribers := fun other => congrArg Object.subscribers (object other)
  have targetsOf : ∀ other, ((unlinkSubscription sub reg).object other).targetList =
      if other = (reg.subscription sub).subscriber then (reg.object other).targetList.erase sub
      else (reg.object other).targetList := fun other => congrArg Object.targetList (object other)
  have client : ∀ other, ((unlinkSubscription sub reg).object other).client =
      (reg.object other).client := fun other => by rw [object]
  -- what is still in a list was there before, and is another subscription
  have subscriber : ∀ other other', reg.HasObject other →
      (other' ∈ ((unlinkSubscription sub reg).object other).subscribers ↔
        other' ∈ (reg.object other).subscribers ∧ other' ≠ sub) := by
    intro other other' hasOther
    rw [subscribersOf]
    split
    · rw [(good.subs.nodupSubscribers other hasOther).mem_erase_iff, and_comm]
    rename_i differs
    refine ⟨fun inside => ⟨inside, ?_⟩, And.left⟩
    rintro rfl
    exact differs (good.subs.subscribers other _ hasOther inside).1.symm
  have targeted : ∀ other other', reg.HasObject other →
      (other' ∈ ((unlinkSubscription sub reg).object other).targetList ↔
        other' ∈ (reg.object other).targetList ∧ other' ≠ sub) := by
    intro other other' hasOther
    rw [targetsOf]
    split
    · rw [(good.subs.nodupTargets other hasOther).mem_erase_iff, and_comm]
    rename_i differs
    refine ⟨fun inside => ⟨inside, ?_⟩, And.left⟩
    rintro rfl
    exact differs (good.subs.targets other _ hasOther inside).1.symm
  refine good_subs good (fun other => ⟨_, _, object other⟩) le_rfl ⟨?_, ?_, ?_, ?_, ?_, ?_⟩
  · intro other other' hasOther inside
    obtain ⟨old, differs⟩ := (subscriber other other' hasOther).mp inside
    obtain ⟨isTarget, hasSub, listed⟩ := good.subs.subscribers other other' hasOther old
    exact ⟨isTarget, hasSub, (targeted _ other' hasSub).mpr ⟨listed, differs⟩⟩
  · intro other other' hasOther inside
    obtain ⟨old, differs⟩ := (targeted other other' hasOther).mp inside
    obtain ⟨isSub, hasT, listed⟩ := good.subs.targets other other' hasOther old
    exact ⟨isSub, hasT, (subscriber _ other' hasT).mpr ⟨listed, differs⟩⟩
  · intro other other' hasOther inside
    rw [client, client]
    exact good.subs.owners other other' hasOther ((subscriber other other' hasOther).mp inside).1
  · intro other hasOther
    rw [subscribersOf]
    split
    · exact (good.subs.nodupSubscribers other hasOther).erase sub
    · exact good.subs.nodupSubscribers other hasOther
  · intro other hasOther
    rw [targetsOf]
    split
    · exact (good.subs.nodupTargets other hasOther).erase sub
    · exact good.subs.nodupTargets other hasOther
  · intro other other' hasOther inside
    exact good.subs.below other other' hasOther ((subscriber other other' hasOther).mp inside).1

end Subscriptions

end Ubus
