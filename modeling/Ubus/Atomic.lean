/-
**Rejected requests are atomic.**

* `Bus.createObject_none`: an addition that fails leaves nothing behind.
* `atomic_handle`: a handler that returns an error has changed nothing.
* `rejected_atomic`: the only message for a rejected request is its status.
-/

import Ubus.Lookup
import Ubus.Untouched

namespace Ubus

open Lib

/-- **The registry is the same**, as far as its trees lead. -/
structure Registry.Same (reg reg' : Registry) : Prop where
  clients : reg'.clients = reg.clients
  objects : reg'.objects = reg.objects
  objTypes : reg'.objTypes = reg.objTypes
  path : reg'.path = reg.path
  patterns : reg'.patterns = reg.patterns
  acl : reg'.acl = reg.acl
  client : reg'.client = reg.client
  object : ∀ obj, reg.HasObject obj → reg'.object obj = reg.object obj
  objType : ∀ type, reg.objTypes.Has type → reg'.objType type = reg.objType type
  subscription : reg'.subscription = reg.subscription
  eventSource : reg'.eventSource = reg.eventSource

/-! ### An addition that fails -/

/-- What adding an object does not look at. -/
structure Aside (reg reg' : Registry) : Prop where
  clients : reg'.clients = reg.clients
  client : reg'.client = reg.client
  path : reg'.path = reg.path
  patterns : reg'.patterns = reg.patterns
  acl : reg'.acl = reg.acl
  subscription : reg'.subscription = reg.subscription
  eventSource : reg'.eventSource = reg.eventSource

theorem Aside.refl (reg : Registry) : Aside reg reg := ⟨rfl, rfl, rfl, rfl, rfl, rfl, rfl⟩

theorem Aside.trans {reg reg' reg'' : Registry} (one : Aside reg reg') (two : Aside reg' reg'') :
    Aside reg reg'' :=
  ⟨two.clients.trans one.clients, two.client.trans one.client, two.path.trans one.path,
    two.patterns.trans one.patterns, two.acl.trans one.acl,
    two.subscription.trans one.subscription, two.eventSource.trans one.eventSource⟩

/-- At most one type was added, and types were only removed after that. -/
def Pruned (brk : Nat) (tree tree' : AvlTree UInt32) : Prop :=
  ∃ keep : UInt32 × Nat → Bool, tree' = tree.filter keep ∨
    ∃ id, tree' = (tree.insert id brk).filter keep

theorem Pruned.filter {brk : Nat} {tree tree' : AvlTree UInt32} (pruned : Pruned brk tree tree')
    (keep : UInt32 × Nat → Bool) : Pruned brk tree (tree'.filter keep) := by
  obtain ⟨keep', rfl | ⟨id, rfl⟩⟩ := pruned
  · exact ⟨_, Or.inl (List.filter_filter ..)⟩
  · exact ⟨_, Or.inr ⟨id, List.filter_filter ..⟩⟩

/-- Only the types have changed. -/
structure Retyped (reg reg' : Registry) : Prop where
  aside : Aside reg reg'
  object : ∀ obj, reg.HasObject obj → reg'.object obj = reg.object obj
  objects : reg'.objects = reg.objects
  types : Pruned reg.brk reg.objTypes reg'.objTypes

theorem Pruned.refl (brk : Nat) (tree : AvlTree UInt32) : Pruned brk tree tree :=
  ⟨fun _ => true, Or.inl (List.filter_true _).symm⟩

theorem Retyped.refl (reg : Registry) : Retyped reg reg :=
  ⟨.refl reg, fun _ _ => rfl, rfl, .refl ..⟩

section Adding

variable {reg : Registry}

theorem unrefType_aside (type : Option Nat) (reg : Registry) : Aside reg (unrefType type reg) ∧
    ∃ keep, (unrefType type reg).objTypes = reg.objTypes.filter keep := by
  have all : reg.objTypes = reg.objTypes.filter fun _ => true := (List.filter_true _).symm
  unfold unrefType
  split
  · exact ⟨.refl reg, _, all⟩
  unfold ubusUnrefObjectType
  simp only
  split
  · exact ⟨⟨rfl, rfl, rfl, rfl, rfl, rfl, rfl⟩, _, all⟩
  · exact ⟨⟨rfl, rfl, rfl, rfl, rfl, rfl, rfl⟩, _, rfl⟩

theorem Retyped.unref {reg' : Registry} (retyped : Retyped reg reg') (type : Option Nat) :
    Retyped reg (unrefType type reg') := by
  obtain ⟨objects, object, -, -⟩ := unrefType_keeps type reg'
  obtain ⟨aside, keep, filtered⟩ := unrefType_aside type reg'
  refine ⟨retyped.aside.trans aside, fun obj has => ?_, objects.trans retyped.objects, ?_⟩
  · rw [object, retyped.object obj has]
  rw [filtered]
  exact retyped.types.filter keep

theorem retyped_objectType (lib : Libubox) (attr : Attrs) (rnd : List UInt32) (reg : Registry) :
    Retyped reg (objectType lib attr rnd reg).2.2 := by
  unfold objectType
  split
  · rename_i objtype _
    unfold ubusGetObjType
    cases reg.objTypes.find (lib.blobGetU32 objtype) with
    | none => exact .refl reg
    | some type => exact ⟨⟨rfl, rfl, rfl, rfl, rfl, rfl, rfl⟩, fun _ _ => rfl, rfl, .refl ..⟩
  · unfold ubusCreateObjType
    rcases result : ubusAllocId reg.objTypes reg.brk rnd with ⟨_ | ⟨id, objTypes⟩, rest⟩
    · simp only [result]
      exact .refl reg
    obtain ⟨-, rfl, -⟩ := ubusAllocId_some result
    have added : ∀ f, Retyped reg (Registry.mapObjType reg.brk f
        { reg with objTypes := reg.objTypes.insert id reg.brk, brk := reg.brk + 1 }) := fun f =>
      ⟨⟨rfl, rfl, rfl, rfl, rfl, rfl, rfl⟩, fun _ _ => rfl, rfl,
        fun _ => true, Or.inr ⟨id, (List.filter_true _).symm⟩⟩
    simp only [result]
    split
    · exact (added _).unref (some reg.brk)
    · simp only
      exact added _
  · exact .refl reg

theorem newObject_aside (id : UInt32) (objects : AvlTree UInt32) (type : Option Nat) (reg : Registry) :
    Aside reg (newObject id objects type reg) ∧ (newObject id objects type reg).objects = objects ∧
      (newObject id objects type reg).objTypes = reg.objTypes := by
  unfold newObject
  simp only
  split <;> exact ⟨⟨rfl, rfl, rfl, rfl, rfl, rfl, rfl⟩, rfl, rfl⟩

/-- The object that is being added is new, and nothing else has changed but the types. -/
structure Adding (obj : Nat) (reg reg' : Registry) : Prop where
  aside : Aside reg reg'
  fresh : ¬ reg.HasObject obj
  object : ∀ other, reg.HasObject other → reg'.object other = reg.object other
  objects : ∃ id, reg'.objects = reg.objects.insert id obj
  types : Pruned reg.brk reg.objTypes reg'.objTypes

theorem allocObject_cases (lib : Libubox) (good : reg.Ok) (attr : Attrs) (rnd : List UInt32) :
    let result := allocObject lib attr rnd reg
    (result.1 = none → Retyped reg result.2.2) ∧
      ∀ obj, result.1 = some obj → Adding obj reg result.2.2 := by
  have retyped := retyped_objectType lib attr rnd reg
  have typed := good_objectType lib good attr rnd
  unfold allocObject ubusdCreateObjectInternal
  simp only
  generalize objectType lib attr rnd reg = result at retyped typed ⊢
  obtain ⟨type, rnd', reg'⟩ := result
  simp only at retyped typed ⊢
  rcases made : ubusAllocId reg'.objects reg'.brk rnd' with ⟨_ | ⟨id, objects⟩, rest⟩
  · simp only
    exact ⟨fun _ => retyped.unref type, by rintro _ ⟨⟩⟩
  obtain ⟨-, rfl, -⟩ := ubusAllocId_some made
  simp only
  refine ⟨by rintro ⟨⟩, ?_⟩
  rintro obj ⟨⟩
  obtain ⟨aside, objects, objTypes⟩ :=
    newObject_aside id (reg'.objects.insert id reg'.brk) type reg'
  obtain ⟨-, -, object⟩ := newObject_keeps id (reg'.objects.insert id reg'.brk) type reg'
  obtain ⟨objects', object', -, -⟩ :=
    unrefType_keeps type (newObject id (reg'.objects.insert id reg'.brk) type reg')
  obtain ⟨aside', keep, filtered⟩ :=
    unrefType_aside type (newObject id (reg'.objects.insert id reg'.brk) type reg')
  have fresh : ¬ reg.HasObject reg'.brk := fun has => by
    rw [Registry.HasObject, ← retyped.objects] at has
    exact absurd (typed.objects.lt_of_has has) (lt_irrefl _)
  refine ⟨(retyped.aside.trans aside).trans aside', fresh, fun other has => ?_, ⟨id, ?_⟩, ?_⟩
  · have differs : other ≠ reg'.brk := by
      rintro rfl
      exact fresh has
    rw [object', object, withObject, Function.update_of_ne differs, retyped.object other has]
  · rw [objects', objects, retyped.objects]
  · rw [filtered, objTypes]
    exact retyped.types.filter keep

end Adding

/-! ### Nothing is left behind -/

section Same

variable {reg reg' : Registry} {obj : Nat}

theorem Registry.Ok.hasType_iff (good : reg.Ok) {type : Nat} :
    reg.objTypes.Has type ↔ ∃ obj, reg.HasObject obj ∧ (reg.object obj).type = some type := by
  constructor
  · intro has
    have positive := good.types.positive type has
    rw [good.types.refcount type has, if_neg nofun, Nat.add_zero, typeUses, List.countP_pos_iff]
      at positive
    obtain ⟨node, member, uses⟩ := positive
    exact ⟨node.2, AvlTree.has_of_mem member, of_decide_eq_true uses⟩
  · rintro ⟨obj, has, typed⟩
    exact good.types.known obj type has typed

/-- **The types are the same** when the same objects use them. -/
theorem Pruned.same (pruned : Pruned reg.brk reg.objTypes reg'.objTypes) (good : reg.Ok)
    (same : ∀ node, node ∈ reg'.objTypes ↔ node ∈ reg.objTypes) : reg'.objTypes = reg.objTypes := by
  have kept : ∀ keep : UInt32 × Nat → Bool, (∀ node ∈ reg.objTypes, keep node = true) →
      reg.objTypes.filter keep = reg.objTypes := fun keep all => List.filter_eq_self.mpr all
  obtain ⟨keep, filtered | ⟨id, filtered⟩⟩ := pruned
  · refine filtered.trans (kept keep fun node member => ?_)
    have member' := (same node).mpr member
    rw [filtered] at member'
    exact (List.mem_filter.mp member').2
  · have out : keep (id, reg.brk) = false := by
      by_contra isIn
      have member : (id, reg.brk) ∈ reg'.objTypes := by
        rw [filtered]
        exact List.mem_filter.mpr ⟨AvlTree.mem_insert.mpr (Or.inl rfl), by simpa using isIn⟩
      exact absurd (good.objTypes.below _ ((same _).mp member)) (lt_irrefl _)
    rw [filtered, AvlTree.filter_insert out]
    refine kept keep fun node member => ?_
    have member' := (same node).mpr member
    rw [filtered] at member'
    exact (List.mem_filter.mp member').2

theorem Retyped.same (retyped : Retyped reg reg') (good : reg.Ok) (good' : reg'.Ok)
    (contents : ∀ obj type, reg.HasObject obj → (reg.object obj).type = some type →
      (reg'.objType type).id = (reg.objType type).id ∧
        (reg'.objType type).methods = (reg.objType type).methods) : reg.Same reg' := by
  have live : ∀ obj, reg'.HasObject obj ↔ reg.HasObject obj := fun obj => by
    rw [Registry.HasObject, retyped.objects]
    exact Iff.rfl
  have hasType : ∀ type, reg'.objTypes.Has type ↔ reg.objTypes.Has type := fun type => by
    rw [good'.hasType_iff, good.hasType_iff]
    refine exists_congr fun obj => ?_
    rw [live]
    exact and_congr_right fun has => by rw [retyped.object obj has]
  have contents' : ∀ type, reg.objTypes.Has type → (reg'.objType type).id = (reg.objType type).id ∧
      (reg'.objType type).methods = (reg.objType type).methods := fun type has => by
    obtain ⟨obj, has, typed⟩ := good.hasType_iff.mp has
    exact contents obj type has typed
  have uses : ∀ type, typeUses reg'.objects reg'.object type = typeUses reg.objects reg.object type :=
    fun type => by
      rw [typeUses, retyped.objects, typeUses]
      refine List.countP_congr fun node member => ?_
      rw [retyped.object node.2 (AvlTree.has_of_mem member)]
  have counts : ∀ type, reg.objTypes.Has type →
      (reg'.objType type).refcount = (reg.objType type).refcount := fun type has => by
    rw [good'.types.refcount type ((hasType type).mpr has), good.types.refcount type has, uses]
  refine ⟨retyped.aside.clients, retyped.objects, retyped.types.same good ?_, retyped.aside.path,
    retyped.aside.patterns, retyped.aside.acl, retyped.aside.client, retyped.object, fun type has => ?_,
    retyped.aside.subscription, retyped.aside.eventSource⟩
  · rintro ⟨id, type⟩
    rw [good'.objTypes.mem_iff, good.objTypes.mem_iff, hasType]
    exact and_congr_right fun has => by rw [(contents' type has).1]
  · obtain ⟨id, methods⟩ := contents' type has
    have refcount := counts type has
    generalize reg'.objType type = new at id methods refcount ⊢
    generalize reg.objType type = old at id methods refcount ⊢
    obtain ⟨_, _, _⟩ := new
    obtain ⟨_, _, _⟩ := old
    simp only at id methods refcount
    rw [id, methods, refcount]

/-- **A new object is dropped again.** -/
theorem Adding.dropped (adding : Adding obj reg reg') (ownerless : (reg'.object obj).client = none)
    (pathless : (reg'.object obj).path = none) : Retyped reg (dropObject obj reg') := by
  obtain ⟨id, objects⟩ := adding.objects
  have dropped : dropObject obj reg' = unrefType (reg'.object obj).type
      { reg' with objects := reg'.objects.delete obj } := by
    simp only [dropObject, removePath, unlinkObject, pathless, ownerless]
  have deleted : reg'.objects.delete obj = reg.objects := by
    rw [objects, AvlTree.delete, AvlTree.filter_insert (by simp)]
    refine List.filter_eq_self.mpr fun node member => decide_eq_true ?_
    rintro rfl
    exact adding.fresh (AvlTree.has_of_mem member)
  have apart : Retyped reg { reg' with objects := reg'.objects.delete obj } :=
    ⟨adding.aside.trans ⟨rfl, rfl, rfl, rfl, rfl, rfl, rfl⟩, adding.object, deleted, adding.types⟩
  rw [dropped]
  exact apart.unref _

end Same

/-! ### Handlers that refuse -/

section Rejected

variable (lib : Libubox) {b : Bus} {cl obj : Nat} {hdr : Msghdr} {data : Payload} {status : Status}

/-- **The bus is the same**, apart from the random numbers that were used. -/
structure Bus.Same (b b' : Bus) : Prop where
  reg : b.reg.Same b'.reg
  rest : b' = { b with reg := b'.reg, rnd := b'.rnd }

theorem Registry.Same.refl (reg : Registry) : reg.Same reg :=
  ⟨rfl, rfl, rfl, rfl, rfl, rfl, rfl, fun _ _ => rfl, fun _ _ => rfl, rfl, rfl⟩

theorem Bus.Same.refl (b : Bus) : b.Same b := ⟨.refl b.reg, rfl⟩

theorem Bus.freeObject_new (good : b.reg.Good (some obj) none)
    (pathless : (b.reg.object obj).path = none) :
    b.freeObject lib obj = b.mapReg (dropObject obj) := by
  obtain ⟨has, ownerless, -⟩ := good.owners.made obj rfl
  obtain ⟨subscribers, targets, events⟩ := good.unlinked has ownerless
  have cleaned : b.mapReg (ubusdEventCleanupObject obj) = b := by
    rw [Bus.mapReg, ubusdEventCleanupObject, events]
    rfl
  unfold Bus.freeObject
  simp only [targets, List.foldl_nil, subscribers, cleaned]
  simp only [Bus.announceRemoval, pathless]

/-- **An addition that fails leaves nothing behind.** -/
theorem Bus.createObject_none (good : b.reg.Ok) {attr : Attrs}
    (failed : (b.createObject lib cl attr).1 = none) : b.Same (b.createObject lib cl attr).2 := by
  obtain ⟨good', -, -, pathless⟩ := good_allocObject lib good attr b.rnd
  obtain ⟨leaves, fresh⟩ : Leaves (fun obj => ¬ b.reg.HasObject obj) b.reg _ ∧ _ :=
    Leaves.allocObject lib good attr b.rnd
  obtain ⟨nothing, adding⟩ := allocObject_cases lib good attr b.rnd
  have contents : ∀ {reg' : Registry}, Leaves (fun obj => ¬ b.reg.HasObject obj) b.reg reg' →
      ∀ obj type, b.reg.HasObject obj → (b.reg.object obj).type = some type →
        (reg'.objType type).id = (b.reg.objType type).id ∧
          (reg'.objType type).methods = (b.reg.objType type).methods :=
    fun leaves obj type has typed => (leaves.object obj has (not_not.mpr has)).contents type typed
  revert failed
  unfold Bus.createObject
  generalize allocObject lib attr b.rnd b.reg = result at *
  obtain ⟨_ | obj, rnd, reg⟩ := result
  · exact fun _ => ⟨(nothing rfl).same good good' (contents leaves), rfl⟩
  simp only at good' pathless leaves fresh adding ⊢
  obtain ⟨has, ownerless, -⟩ := good'.owners.made obj rfl
  obtain ⟨subscribers, targets, events⟩ := good'.unlinked has ownerless
  have dropped : b.Same (Bus.freeObject lib { b with reg, rnd } obj) := by
    have freed : (Bus.mk reg b.stamps b.monitors b.cause rnd b.out).freeObject lib obj = _ :=
      Bus.freeObject_new lib good' (pathless obj rfl)
    have final : (dropObject obj reg).Ok := good_dropObject good'
      (fun _ same => (Option.some.inj same).symm) has subscribers targets events
    rw [freed]
    exact ⟨((adding obj rfl).dropped ownerless (pathless obj rfl)).same good final
      (contents (leaves.trans (.dropObject good' (fresh obj rfl) subscribers))), rfl⟩
  split
  · rintro ⟨⟩
  split
  · exact fun _ => dropped
  · split
    · exact fun _ => dropped
    · rintro ⟨⟩

/-- A handler returns an error. -/
def Ret.Error : Ret → Prop
  | .done status => status ≠ .ok
  | _ => False

/-- A result is an error only if nothing has changed. -/
def Atomic {α : Type} (error : α → Prop) (b : Bus) (result : α × Bus) : Prop :=
  error result.1 → b.Same result.2

theorem Atomic.same {α : Type} {error : α → Prop} (ret : α) : Atomic error b (ret, b) :=
  fun _ => .refl b

theorem Atomic.ok {b' : Bus} : Atomic Ret.Error b (.done .ok, b') := fun error => absurd rfl error

theorem Atomic.silent {b' : Bus} : Atomic Ret.Error b (.silent, b') := False.elim

theorem atomic_sendEvent (from' : Option Nat) (id : CString) (rest : List Put) :
    Atomic (· ≠ .ok) b (b.sendEvent lib from' id rest) := by
  unfold Bus.sendEvent
  split
  · exact .same _
  · exact fun error => absurd rfl error

theorem allocEventPattern_refused {msg : Option Bytes} {reg : Registry}
    (error : (ubusdAllocEventPattern lib cl msg reg).1 ≠ .ok) :
    (ubusdAllocEventPattern lib cl msg reg).2 = reg := by
  revert error
  unfold ubusdAllocEventPattern
  cases msg with
  | none => exact fun _ => rfl
  | some msg =>
    simp only
    split
    · split
      · exact fun _ => rfl
      split
      · exact fun _ => rfl
      split
      · exact fun _ => rfl
      split
      · exact fun _ => rfl
      · split
        · exact fun _ => rfl
        · exact fun error => absurd rfl error
    · exact fun _ => rfl

theorem atomic_eventRecv (method : CString) (msg : Option Bytes) :
    Atomic (· ≠ .ok) b (b.eventRecv lib cl method msg) := by
  unfold Bus.eventRecv
  split
  · intro error
    have same := allocEventPattern_refused lib error
    refine ⟨?_, rfl⟩
    show b.reg.Same (ubusdAllocEventPattern lib cl msg b.reg).2
    rw [same]
    exact .refl b.reg
  · split
    · unfold Bus.forwardEvent
      cases msg with
      | none => exact .same _
      | some msg =>
        simp only
        split
        · split
          · exact .same _
          · exact atomic_sendEvent lib _ _ _
        · exact .same _
    · exact .same _

theorem atomic_recvMsg (recv : Option RecvMsg) (method : CString) :
    Atomic (· ≠ .ok) b (b.recvMsg lib recv cl hdr data method) := by
  unfold Bus.recvMsg
  split
  · exact .same _
  · exact atomic_eventRecv lib method _
  · split
    · unfold Bus.replyQuery
      split
      · exact .same _
      · split
        · exact .same _
        · exact fun error => absurd rfl error
    · exact .same _
  · unfold Bus.monitorRecv
    simp only
    split
    · exact .same _
    split
    · exact fun error => absurd rfl error
    · split
      · exact fun error => absurd rfl error
      · exact .same _

theorem atomic_invoke : Atomic Ret.Error b (b.handleInvoke lib cl hdr data) := by
  unfold Bus.handleInvoke
  split
  · split
    · exact .same _
    simp only
    split
    · exact .same _
    · split
      · exact atomic_recvMsg lib _ _
      · exact .silent
  · exact .same _

theorem atomic_removeObject : Atomic Ret.Error b (b.handleRemoveObject lib cl hdr data) := by
  unfold Bus.handleRemoveObject
  split
  · exact .same _
  split
  · exact .same _
  · split
    · exact .same _
    · exact .ok

theorem atomic_addObject (good : b.reg.Ok) :
    Atomic Ret.Error b (b.handleAddObject lib cl hdr data) := by
  have failed : (b.createObject lib cl (ubusParseMsg lib data)).1 = none → _ :=
    Bus.createObject_none lib good
  unfold Bus.handleAddObject
  generalize b.createObject lib cl (ubusParseMsg lib data) = result at failed ⊢
  obtain ⟨_ | obj, b'⟩ := result
  · exact fun _ => failed rfl
  · exact .ok

theorem atomic_notify : Atomic Ret.Error b (b.handleNotify lib cl hdr data) := by
  unfold Bus.handleNotify
  split
  · split
    · exact .same _
    · split
      · exact .same _
      · exact .silent
  · exact .same _

theorem atomic_response : Atomic Ret.Error b (b.handleResponse lib cl hdr data) := by
  unfold Bus.handleResponse
  split
  · exact .same _
  split
  · exact .same _
  split
  · exact .same _
  split
  · exact .same _
  · split
    · exact .same _
    · exact .silent

theorem atomic_addWatch : Atomic Ret.Error b (b.handleAddWatch lib cl data) := by
  unfold Bus.handleAddWatch
  split
  · split
    · exact .same _
    split
    · exact .same _
    split
    · exact .same _
    split
    · exact .same _
    split
    · exact .same _
    · split
      · exact .same _
      · exact .ok
  · exact .same _

theorem atomic_removeWatch : Atomic Ret.Error b (b.handleRemoveWatch lib cl data) := by
  unfold Bus.handleRemoveWatch
  split
  · split
    · exact .same _
    split
    · exact .same _
    · split
      · exact .same _
      · exact .ok
  · exact .same _

/-- **A handler that returns an error has changed nothing.** -/
theorem atomic_handle (good : b.reg.Ok) : Atomic Ret.Error b (b.handle lib cl hdr data) := by
  unfold Bus.handle
  split
  · exact .ok
  · exact atomic_addObject lib good
  · exact atomic_removeObject lib
  · exact atomic_invoke lib
  · exact atomic_response lib
  · exact atomic_response lib
  · exact atomic_addWatch lib
  · exact atomic_removeWatch lib
  · exact atomic_notify lib
  · exact .same _

theorem Bus.Looks.refused {start : Option CString} {b' : Bus}
    (looks : b.Looks lib cl hdr data start (.finished status) b') (error : status ≠ .ok) : b' = b := by
  cases looks with
  | full => exact absurd rfl error
  | path named =>
    revert error
    unfold Bus.find
    split
    · exact fun _ => rfl
    split
    · split
      · exact fun _ => rfl
      · exact fun error => absurd rfl error
    · simp only
      split
      · exact fun _ => rfl
      · exact fun error => absurd rfl error

end Rejected

/-! ### Messages that are refused -/

section Messages

variable (lib : Libubox) {s s' : State} {cl ub : Nat} {status : Status}

/-- **A message of a client gets an error**, one that was just received or a lookup that waited. -/
inductive Rejects (cl ub : Nat) (status : Status) : State → State → Prop where
  | received {s : State} (handles : Handles lib cl ub s)
      (returned : (dispatch lib cl ub (dropFd ub (setRetmsg cl ub s))).1 = .done status) :
      Rejects cl ub status s (ubusdProtoReceiveMessage lib cl ub s)
  | resumed {s : State} {place : Option CString} (reachable : Reachable lib s)
      (known : s.reg.HasClient cl) (first : (s.sock cl).cmdQueue.head? = some ⟨ub, place⟩)
      (returned : (ubusdCmdLookup lib cl ⟨ub, place⟩ (resuming cl ⟨ub, place⟩ s)).1 = .done status) :
      Rejects cl ub status s (resumeCmd lib cl ⟨ub, place⟩ s).1

theorem Rejects.shows (rejects : Rejects lib cl ub status s s') (error : status ≠ .ok)
    (funded : Funded s) : ∃ b, { s.bus with cause := s'.cause }.Same b ∧
      Shows s' (b.status cl (s.net.buf ub).hdr status) := by
  cases rejects with
  | received handles returned =>
    have ctx := handles.processing
    have shows : Shows s s.bus := ⟨rfl, funded⟩
    have good : s.bus.reg.Ok := ctx.inv.good
    obtain ⟨b, same, final⟩ : ∃ b, s.bus.Same b ∧ Shows (ubusdProtoReceiveMessage lib cl ub s)
        (b.status cl (s.net.buf ub).hdr status) := by
      by_cases lookup : (s.net.buf ub).hdr.type = MsgType.lookup.code
      · obtain ⟨place, b', goes, final, -⟩ := goes_receiveLookup lib shows ctx lookup
        rw [returned] at goes
        cases goes with
        | finished looks =>
          obtain rfl := looks.refused lib error
          exact ⟨_, .refl _, final⟩
      · obtain ⟨retmsg, ctx1, -, -, -⟩ := ctx.setRetmsg
        obtain ⟨ctx2, -, -, -⟩ := dropFd_spec lib ctx1
        have agrees := agrees_handle lib (shows_prepare lib shows ctx) ctx2 lookup
        have ret : (s.bus.handle lib cl (s.net.buf ub).hdr (s.net.buf ub).data).1 = .done status :=
          agrees.ret.symm.trans returned
        have atomic : Ret.Error (s.bus.handle lib cl (s.net.buf ub).hdr (s.net.buf ub).data).1 → _ :=
          atomic_handle lib good
        have final := shows_receiveMessage lib shows ctx lookup
        rw [ret] at atomic
        refine ⟨_, atomic error, ?_⟩
        rwa [Bus.answer, show s.bus.handle lib cl (s.net.buf ub).hdr (s.net.buf ub).data =
          (.done status, _) from Prod.ext ret rfl] at final
    have cause : (ubusdProtoReceiveMessage lib cl ub s).cause = s.bus.cause := by
      rw [final.cause, Bus.status, Bus.reply, Bus.submitTo, Bus.submit, same.rest]
    refine ⟨b, ?_, final⟩
    rw [cause]
    exact same
  | resumed reachable known first returned =>
    obtain ⟨place', b', goes, final, -⟩ := goes_resumeCmd lib funded reachable.inv known first
    rw [returned] at goes
    cases goes with
    | finished looks =>
      obtain rfl := looks.refused lib error
      refine ⟨_, ?_, final⟩
      rw [final.cause]
      exact .refl _

/-- **Rejected requests are atomic.** The trees are as before, and so is all they lead to; so are the
monitors. The only message is the status for the client that asked. -/
theorem rejected_atomic (rejects : Rejects lib cl ub status s s') (error : status ≠ .ok)
    (funded : Funded s) : s.reg.Same s'.reg ∧
      s'.net.monitors.map Monitor.cl = s.net.monitors.map Monitor.cl ∧
      letters s'.trace = letters s.trace ++
        [Bus.statusLetter s'.cause cl (s.buf ub).hdr status] := by
  obtain ⟨b, same, final⟩ := rejects.shows lib error funded
  have bus : s'.bus = b.status cl (s.net.buf ub).hdr status := final.bus
  rw [same.rest] at bus
  refine ⟨?_, congrArg Bus.monitors bus, congrArg Bus.out bus⟩
  rw [show s'.reg = b.reg from congrArg Bus.reg bus]
  exact same.reg

/-- Two clients add an object under the same path; the second request is not read yet. -/
def duplicateRun : List Input :=
  addRun ++ [connects rootCred 6000,
    { action := .client 5 false false (Blob.message .addObject 1 0
        [.string .objpath (cstr "foo"), .nest .signature []]) [] [.got 11 false, .again]
      rnd := [7000, 8000] }]

theorem rejected_atomic_duplicate : ∃ s s', Rejects Blob.libubox 5 6 .invalidArgument s s' ∧
    Funded s ∧ s.reg.path = [(cstr "foo", 4)] ∧ s.reg.Same s'.reg := by
  have reachable := reachable_run Blob.libubox duplicateRun
  obtain ⟨t, start⟩ : ∃ t, run Blob.libubox duplicateRun State.init = t := ⟨_, rfl⟩
  rw [start] at reachable
  have handles : Handles Blob.libubox 5 6 _ := .read 12 reachable
    (by rw [← start]; decide +kernel) (by rw [← start]; decide +kernel)
    (by rw [← start]; decide +kernel)
  obtain ⟨s, here⟩ : ∃ s, ubusdMonitorMessage Blob.libubox 5 6 false
    (takeMessage 5 6 (gotBody Blob.libubox 5 6 12 t)) = s := ⟨_, rfl⟩
  rw [here] at handles
  have returned : (dispatch Blob.libubox 5 6 (dropFd 6 (setRetmsg 5 6 s))).1 =
      .done .invalidArgument := by
    rw [← here, ← start]
    decide +kernel
  have rejects := Rejects.received handles returned
  have funded : Funded s := by
    rw [← here, ← start]
    unfold Funded
    decide +kernel
  exact ⟨s, _, rejects, funded, by rw [← here, ← start]; decide +kernel,
    (rejected_atomic Blob.libubox rejects (by decide) funded).1⟩

end Messages

end Ubus
