/-
**Work on the registry.**

Adding and removing objects and subscriptions changes the registry and sends messages in the middle
of it. Apart from the registry such an operation only sends.

* `Work events keep s s'` — the registry changed, with the same clients, and messages were sent.
* `does_freeObject`, `does_createObject`: the two operations on objects.
-/

import Ubus.Sends
import Ubus.Lifecycle

namespace Ubus

open Lib

variable {reg reg' : Registry} {cl sub : Nat}

/-- The registry changed, with the same clients, and messages were sent. -/
structure Work (events : Event → Prop) (keep : Nat → Prop) (s s' : State) : Prop where
  sends : Sends events keep { s with reg := s'.reg, rnd := s'.rnd } s'
  clients : s'.reg.clients = s.reg.clients
  client : ∀ cl, (s'.reg.client cl).id = (s.reg.client cl).id ∧
    (s'.reg.client cl).cred = (s.reg.client cl).cred

theorem Sends.withReg {events : Event → Prop} {keep : Nat → Prop} {s s' : State}
    (sends : Sends events keep s s') (reg : Registry) (rnd : List UInt32) :
    Sends events keep { s with reg, rnd } { s' with reg, rnd } := by
  have frame := sends.frame
  exact ⟨⟨rfl, frame.cause, rfl, frame.fault, frame.socks, frame.fdBrk, frame.monitors, frame.rx,
    frame.cmdQueue, frame.retmsg, frame.brk, frame.hdr, frame.data, frame.fd, frame.trace,
    frame.allocs⟩, sends.custody⟩

namespace Work

variable {events : Event → Prop} {keep : Nat → Prop} {s s' s'' : State}

theorem refl (s : State) : Work events keep s s := ⟨Sends.refl s, rfl, fun _ => ⟨rfl, rfl⟩⟩

theorem trans (one : Work events keep s s') (two : Work events keep s' s'') :
    Work events keep s s'' :=
  ⟨(one.sends.withReg s''.reg s''.rnd).trans two.sends, two.clients.trans one.clients,
    fun cl => ⟨(two.client cl).1.trans (one.client cl).1, (two.client cl).2.trans (one.client cl).2⟩⟩

theorem of_sends (sends : Sends events keep s s') : Work events keep s s' := by
  have same : { s with reg := s'.reg, rnd := s'.rnd } = s := by
    rw [sends.frame.reg, sends.frame.rnd]
  exact ⟨same.symm ▸ sends, by rw [sends.frame.reg], fun cl => by rw [sends.frame.reg]; simp⟩

theorem of_reg {rnd : List UInt32} (clients : reg.clients = s.reg.clients)
    (client : ∀ cl, (reg.client cl).id = (s.reg.client cl).id ∧ (reg.client cl).cred = (s.reg.client cl).cred) :
    Work events keep s { s with reg, rnd } :=
  ⟨Sends.refl _, clients, client⟩

theorem cause (work : Work events keep s s') : s'.cause = s.cause := work.sends.frame.cause

theorem brk (work : Work events keep s s') : s.net.brk ≤ s'.net.brk := work.sends.frame.brk

theorem bound (work : Work events keep s s') (bound : ∀ ub, keep ub → ub < s.net.brk) :
    ∀ ub, keep ub → ub < s'.net.brk :=
  fun ub kept => lt_of_lt_of_le (bound ub kept) work.brk

theorem hasClient (work : Work events keep s s') : s'.reg.HasClient cl ↔ s.reg.HasClient cl := by
  rw [Registry.HasClient, work.clients, Registry.HasClient]

theorem known (work : Work events keep s s') (known : Known s) : Known s' := by
  refine work.sends.frame.known ⟨fun cl has => ?_, known.monitors⟩
  exact known.clients cl (work.hasClient.mp has)

end Work

/-- **Work that leaves the registry intact**, but for an object that is not finished. -/
structure Does (lib : Libubox) (keep : Nat → Prop) (wip : Option Nat) (s s' : State) : Prop where
  work : Work (Emits lib s.cause) keep s s'
  good : s'.reg.Good wip none

/-- What such work starts from. -/
structure Ready (keep : Nat → Prop) (wip : Option Nat) (s : State) : Prop where
  good : s.reg.Good wip none
  known : Known s
  bound : ∀ ub, keep ub → ub < s.net.brk

section Does

variable {lib : Libubox} {keep : Nat → Prop} {wip wip' : Option Nat} {s s' s'' : State}

theorem Does.refl (good : s.reg.Good wip none) : Does lib keep wip s s := ⟨Work.refl s, good⟩

theorem Does.trans (one : Does lib keep wip s s') (two : Does lib keep wip' s' s'') :
    Does lib keep wip' s s'' := by
  refine ⟨one.work.trans ?_, two.good⟩
  have work := two.work
  rwa [one.work.cause] at work

theorem Does.ready (does : Does lib keep wip' s s') (ready : Ready keep wip s) :
    Ready keep wip' s' :=
  ⟨does.good, does.work.known ready.known, does.work.bound ready.bound⟩

theorem Does.of_sends (good : s.reg.Good wip none) (sends : Sends (Emits lib s.cause) keep s s') :
    Does lib keep wip s s' :=
  ⟨Work.of_sends sends, by rwa [sends.frame.reg]⟩

theorem Does.of_reg {f : Registry → Registry} (good : (f s.reg).Good wip none)
    (clients : (f s.reg).clients = s.reg.clients) (client : (f s.reg).client = s.reg.client) :
    Does lib keep wip s (s.mapReg f) :=
  ⟨Work.of_reg clients fun cl => by rw [client]; simp, good⟩

theorem Does.foldl {ι : Type} (Inv : List ι → State → Prop) (body : State → ι → State)
    (items : List ι) (ready : Ready keep wip s)
    (round : ∀ s item rest, Ready keep wip s → Inv (item :: rest) s →
      Does lib keep wip s (body s item) ∧ Inv rest (body s item))
    (start : Inv items s) :
    Does lib keep wip s (items.foldl body s) ∧ Inv [] (items.foldl body s) := by
  induction items generalizing s with
  | nil => exact ⟨Does.refl ready.good, start⟩
  | cons item rest ih =>
    obtain ⟨first, inv⟩ := round s item rest ready start
    obtain ⟨later, done⟩ := ih (first.ready ready) inv
    exact ⟨first.trans later, done⟩

end Does

/-! ### Messages about the registry -/

section Messages

variable (lib : Libubox) {keep : Nat → Prop} {wip : Option Nat} {s : State}

theorem Registry.Good.owner_known {extra : Option Nat} (good : reg.Good wip extra) {obj : Nat}
    (has : reg.HasObject obj) (owner : (reg.object obj).client = some cl) :
    ∃ dest, (reg.object obj).client = some dest ∧ reg.HasClient dest :=
  ⟨cl, owner, (good.owners.owned obj cl has owner).1⟩

theorem Ready.eventOk (ready : Ready keep wip s) {rest : List Put}
    (origin : EventOrigin lib s.reg s.cause rest) : EventOk lib (Emits lib s.cause) rest s where
  known := ready.known
  owned := by
    intro node member
    obtain ⟨_, has, _, cl, owner⟩ := ready.good.patterns.owner node member
    exact ready.good.owner_known has owner
  admits := admitsMonitor_emits lib s.moment
  admitted := by
    intro node member dest hdr owner fixed
    obtain ⟨_, has, _⟩ := ready.good.patterns.owner node member
    exact ⟨rfl, .event (ready.good.objects.find_iff.mpr ⟨has, rfl⟩) owner fixed origin⟩

theorem sends_sendNumbered (ready : Ready keep wip s) {obj : Nat} (has : s.reg.HasObject obj)
    (owner : (s.reg.object obj).client = some cl) {type : MsgType} {puts : List Put}
    (notice : Notice s.reg type puts) :
    Sends (Emits lib s.cause) keep s (sendNumbered lib obj type puts s) :=
  sends_numbered lib ready.bound ready.known (ready.good.owner_known has owner)
    (admitsMonitor_emits lib s.moment) fun _ _ _ => ⟨rfl, .numbered notice⟩

theorem sends_notifySubscription (ready : Ready keep wip s) {obj : Nat}
    (has : s.reg.HasObject obj) (owner : (s.reg.object obj).client = some cl) :
    Sends (Emits lib s.cause) keep s (ubusNotifySubscription lib obj s) :=
  sends_sendNumbered lib ready has owner .active

theorem sends_sendObjEvent (ready : Ready keep wip s) {obj : Nat} (has : s.reg.HasObject obj)
    {add : Bool} (occasion : Occasion add s.cause) :
    Sends (Emits lib s.cause) keep s (ubusdSendObjEvent lib obj add s) :=
  sends_objEvent lib ready.bound (ready.eventOk lib (.object has occasion))

theorem Ready.caller (ready : Ready keep wip s) (has : s.reg.HasClient cl) : Caller s.reg cl := by
  have found := ready.good.clients.find_iff.mpr ⟨has, rfl⟩
  exact ⟨found, ready.good.clientIds _ (ready.good.clients.mem_iff.mpr ⟨has, rfl⟩)⟩

end Messages

/-! ### Subscriptions -/

section Subscriptions

variable (lib : Libubox) {keep : Nat → Prop} {wip : Option Nat} {s : State}

theorem does_subscribe (ready : Ready keep wip s) {obj target owner : Nat}
    (has : s.reg.HasObject obj) (hasTarget : s.reg.HasObject target)
    (client : (s.reg.object obj).client = some cl)
    (client' : (s.reg.object target).client = some owner) (differ : cl ≠ owner) :
    Does lib keep wip s (ubusSubscribe lib obj target s).2 := by
  have distinct : obj ≠ target := by
    rintro rfl
    rw [client] at client'
    exact differ (Option.some.inj client')
  have linked : Does lib keep wip s (s.mapReg (newSubscription obj target)) :=
    Does.of_reg (good_newSubscription ready.good has hasTarget client client' differ) rfl rfl
  unfold ubusSubscribe
  simp only
  split
  · have ready' := linked.ready ready
    have owned : ((newSubscription obj target s.reg).object target).client = some owner := by
      rw [newSubscription_object s.reg distinct]
      exact client'
    exact linked.trans
      (Does.of_sends ready'.good (sends_notifySubscription lib ready' hasTarget owned))
  · exact linked

/-- A subscription of the registry, with what is known about its ends. -/
structure Linked (reg : Registry) (sub : Nat) : Prop where
  hasTarget : reg.HasObject (reg.subscription sub).target
  hasSubscriber : reg.HasObject (reg.subscription sub).subscriber
  listed : sub ∈ (reg.object (reg.subscription sub).target).subscribers
  owned : ∃ cl, (reg.object (reg.subscription sub).target).client = some cl
  owned' : ∃ cl, (reg.object (reg.subscription sub).subscriber).client = some cl
  distinct : (reg.subscription sub).subscriber ≠ (reg.subscription sub).target

theorem Registry.Good.linked_of_subscriber (good : reg.Good wip none) {obj : Nat}
    (has : reg.HasObject obj) (member : sub ∈ (reg.object obj).subscribers) :
    Linked reg sub ∧ (reg.subscription sub).target = obj := by
  obtain ⟨target, hasSubscriber, _⟩ := good.subs.subscribers obj sub has member
  obtain ⟨cl, owner, client, client', _⟩ := good.subs.owners obj sub has member
  have distinct := good.subs.endpoints has member
  subst target
  exact ⟨⟨has, hasSubscriber, member, ⟨owner, client'⟩, ⟨cl, client⟩, distinct⟩, rfl⟩

theorem Registry.Good.linked_of_target (good : reg.Good wip none) {obj : Nat}
    (has : reg.HasObject obj) (member : sub ∈ (reg.object obj).targetList) :
    Linked reg sub ∧ (reg.subscription sub).subscriber = obj := by
  obtain ⟨subscriber, hasTarget, listed⟩ := good.subs.targets obj sub has member
  exact ⟨(good.linked_of_subscriber hasTarget listed).1, subscriber⟩

theorem does_unsubscribe (ready : Ready keep wip s) (linked : Linked s.reg sub) :
    Does lib keep wip s (ubusUnsubscribe lib s sub) ∧
      (ubusUnsubscribe lib s sub).reg = unlinkSubscription sub s.reg := by
  have unlinked : Does lib keep wip s (s.mapReg (unlinkSubscription sub)) :=
    Does.of_reg (good_unlinkSubscription ready.good linked.hasTarget linked.listed) rfl rfl
  unfold ubusUnsubscribe
  simp only
  split
  · have ready' := unlinked.ready ready
    obtain ⟨cl, owner⟩ := linked.owned
    have sends : Sends (Emits lib s.cause) keep (s.mapReg (unlinkSubscription sub)) _ :=
      sends_notifySubscription lib ready' linked.hasTarget (by
        show ((unlinkSubscription sub s.reg).object _).client = some cl
        rw [unlinkSubscription_object s.reg linked.distinct]
        exact owner)
    exact ⟨unlinked.trans (Does.of_sends ready'.good sends), sends.frame.reg⟩
  · exact ⟨unlinked, rfl⟩

theorem does_notifyUnsubscribe (ready : Ready keep wip s) (linked : Linked s.reg sub) :
    Does lib keep wip s (ubusNotifyUnsubscribe lib s sub) ∧
      (ubusNotifyUnsubscribe lib s sub).reg = unlinkSubscription sub s.reg := by
  unfold ubusNotifyUnsubscribe
  simp only
  obtain ⟨cl, owner⟩ := linked.owned'
  have notice : Notice s.reg .unsubscribe
      [.int32 .objid (s.reg.object (s.reg.subscription sub).subscriber).id,
        .int32 .target (s.reg.object (s.reg.subscription sub).target).id] := .gone
  have sends := sends_sendNumbered lib ready linked.hasSubscriber owner notice
  have does := Does.of_sends ready.good sends
  have reg := sends.frame.reg
  obtain ⟨later, reg'⟩ := does_unsubscribe lib (does.ready ready) (reg.symm ▸ linked)
  exact ⟨does.trans later, by rw [reg', reg]⟩

end Subscriptions

/-! ### Removing an object -/

section Free

variable (lib : Libubox) {keep : Nat → Prop} {wip : Option Nat} {s : State} {obj : Nat}

/-- The same objects, with the same owner and path. -/
structure SameObjects (reg reg' : Registry) : Prop where
  objects : reg'.objects = reg.objects
  client : ∀ obj, (reg'.object obj).client = (reg.object obj).client
  path : ∀ obj, (reg'.object obj).path = (reg.object obj).path

theorem SameObjects.refl (reg : Registry) : SameObjects reg reg :=
  ⟨rfl, fun _ => rfl, fun _ => rfl⟩

theorem SameObjects.trans {reg'' : Registry} (one : SameObjects reg reg')
    (two : SameObjects reg' reg'') : SameObjects reg reg'' :=
  ⟨two.objects.trans one.objects, fun obj => (two.client obj).trans (one.client obj),
    fun obj => (two.path obj).trans (one.path obj)⟩

theorem SameObjects.has (same : SameObjects reg reg') {obj : Nat} (has : reg.HasObject obj) :
    reg'.HasObject obj := by
  rw [Registry.HasObject, same.objects]
  exact has

theorem sameObjects_unlink (linked : Linked reg sub) :
    SameObjects reg (unlinkSubscription sub reg) := by
  have object := unlinkSubscription_object reg linked.distinct
  exact ⟨rfl, fun obj => by rw [object obj], fun obj => by rw [object obj]⟩

theorem does_dropTargets (ready : Ready keep wip s) (has : s.reg.HasObject obj) :
    let s' := (s.reg.object obj).targetList.foldl (ubusUnsubscribe lib) s
    Does lib keep wip s s' ∧ SameObjects s.reg s'.reg ∧ (s'.reg.object obj).targetList = [] := by
  refine Does.foldl (fun rest t => SameObjects s.reg t.reg ∧ (t.reg.object obj).targetList = rest)
    (ubusUnsubscribe lib) _ ready ?_ ⟨SameObjects.refl _, rfl⟩
  rintro t sub rest ready' ⟨same, list⟩
  have member : sub ∈ (t.reg.object obj).targetList := by
    rw [list]
    exact List.mem_cons_self
  obtain ⟨linked, subscriber⟩ := ready'.good.linked_of_target (same.has has) member
  obtain ⟨does, reg⟩ := does_unsubscribe lib ready' linked
  refine ⟨does, ?_, ?_⟩
  · rw [reg]
    exact same.trans (sameObjects_unlink linked)
  · rw [reg, unlinkSubscription_object t.reg linked.distinct]
    simp only [subscriber, if_true, list, List.erase_cons_head]

theorem does_dropSubscribers (ready : Ready keep wip s) (has : s.reg.HasObject obj)
    (targets : (s.reg.object obj).targetList = []) :
    let s' := (s.reg.object obj).subscribers.foldl (ubusNotifyUnsubscribe lib) s
    Does lib keep wip s s' ∧ SameObjects s.reg s'.reg ∧ (s'.reg.object obj).targetList = [] ∧
      (s'.reg.object obj).subscribers = [] := by
  refine Does.foldl (fun rest t => SameObjects s.reg t.reg ∧ (t.reg.object obj).targetList = [] ∧
    (t.reg.object obj).subscribers = rest) (ubusNotifyUnsubscribe lib) _ ready ?_
    ⟨SameObjects.refl _, targets, rfl⟩
  rintro t sub rest ready' ⟨same, targets, list⟩
  have member : sub ∈ (t.reg.object obj).subscribers := by
    rw [list]
    exact List.mem_cons_self
  obtain ⟨linked, target⟩ := ready'.good.linked_of_subscriber (same.has has) member
  obtain ⟨does, reg⟩ := does_notifyUnsubscribe lib ready' linked
  have object := unlinkSubscription_object t.reg linked.distinct obj
  refine ⟨does, ?_, ?_, ?_⟩
  · rw [reg]
    exact same.trans (sameObjects_unlink linked)
  · rw [reg, object]
    simp only [targets, List.erase_nil, ite_self]
  · rw [reg, object]
    simp only [target, if_true, list, List.erase_cons_head]

theorem eventCleanup_object (reg : Registry) (obj other : Nat) : ∃ events,
    (ubusdEventCleanupObject obj reg).object other = { reg.object other with events } := by
  unfold ubusdEventCleanupObject
  generalize (reg.object obj).events = list
  induction list generalizing reg with
  | nil => exact ⟨(reg.object other).events, rfl⟩
  | cons ev rest ih =>
    obtain ⟨events, object⟩ := ih (ubusdDeleteEventSource reg ev)
    rw [List.foldl_cons, object]
    refine ⟨events, ?_⟩
    simp only [ubusdDeleteEventSource, Registry.mapObject, Function.update_apply]
    split
    · rename_i same
      rw [same]
    · rfl

theorem eventCleanup_trees (reg : Registry) (obj : Nat) :
    (ubusdEventCleanupObject obj reg).objects = reg.objects ∧
      (ubusdEventCleanupObject obj reg).clients = reg.clients ∧
      (ubusdEventCleanupObject obj reg).client = reg.client := by
  unfold ubusdEventCleanupObject
  generalize (reg.object obj).events = list
  induction list generalizing reg with
  | nil => exact ⟨rfl, rfl, rfl⟩
  | cons ev rest ih => exact ih (ubusdDeleteEventSource reg ev)

theorem does_eventCleanup (ready : Ready keep wip s) (has : s.reg.HasObject obj) :
    Does lib keep wip s (s.mapReg (ubusdEventCleanupObject obj)) :=
  Does.of_reg (good_eventCleanup ready.good has).1 (eventCleanup_trees s.reg obj).2.1
    (eventCleanup_trees s.reg obj).2.2

theorem sends_announceRemoval (ready : Ready keep wip s) (has : s.reg.HasObject obj)
    (occasion : (s.reg.object obj).path ≠ none → Occasion false s.cause) :
    Sends (Emits lib s.cause) keep s (announceRemoval lib obj s) := by
  unfold announceRemoval
  split
  · exact Sends.refl s
  · rename_i key known
    exact sends_sendObjEvent lib ready has (occasion (by rw [known]; simp))

theorem unrefType_keeps (type : Option Nat) (reg : Registry) :
    (unrefType type reg).objects = reg.objects ∧ (unrefType type reg).object = reg.object ∧
      (unrefType type reg).clients = reg.clients ∧ (unrefType type reg).client = reg.client := by
  unfold unrefType
  split
  · exact ⟨rfl, rfl, rfl, rfl⟩
  · unfold ubusUnrefObjectType
    simp only
    split <;> exact ⟨rfl, rfl, rfl, rfl⟩

theorem dropObject_keeps (good : reg.Good wip none) (obj : Nat) :
    (dropObject obj reg).objects = reg.objects.delete obj ∧
      (dropObject obj reg).object = reg.object ∧ (dropObject obj reg).clients = reg.clients ∧
      ∀ cl, ((dropObject obj reg).client cl).id = (reg.client cl).id ∧
        ((dropObject obj reg).client cl).cred = (reg.client cl).cred := by
  obtain ⟨objects, object, clients, client⟩ :=
    unrefType_keeps (reg.object obj).type (withoutObject obj reg)
  rw [dropObject_eq good, objects, object, clients, client, withoutObject, unlinkObject_eq]
  refine ⟨rfl, rfl, rfl, fun cl => ?_⟩
  exact (unlinkObject_client obj cl { reg with path := reg.path.delete obj }).2

/-- The object is gone, the others have the same owner. -/
structure Removed (obj : Nat) (reg reg' : Registry) : Prop where
  objects : reg'.objects = reg.objects.delete obj
  client : ∀ other, (reg'.object other).client = (reg.object other).client

/-- **`ubusd_free_object`**, for a live object, or for one that was not finished. -/
theorem does_freeObject (ready : Ready keep wip s) (done : ∀ other, wip = some other → other = obj)
    (has : s.reg.HasObject obj) (occasion : (s.reg.object obj).path ≠ none → Occasion false s.cause) :
    Does lib keep none s (ubusdFreeObject lib s obj) ∧
      Removed obj s.reg (ubusdFreeObject lib s obj).reg := by
  obtain ⟨does, same, targets⟩ := does_dropTargets lib ready has
  set first := (s.reg.object obj).targetList.foldl (ubusUnsubscribe lib) s with firstDef
  have readyFirst := does.ready ready
  obtain ⟨does', same', targets', subscribers⟩ :=
    does_dropSubscribers lib readyFirst (same.has has) targets
  set second := (first.reg.object obj).subscribers.foldl (ubusNotifyUnsubscribe lib) first
    with secondDef
  have readySecond := does'.ready readyFirst
  have hasSecond : second.reg.HasObject obj := (same.trans same').has has
  have cleaned : Does lib keep wip second _ := does_eventCleanup lib readySecond hasSecond
  have readyThird := cleaned.ready readySecond
  obtain ⟨events, object⟩ := eventCleanup_object second.reg obj obj
  have noEvents := (good_eventCleanup readySecond.good hasSecond).2
  have trees := eventCleanup_trees second.reg obj
  have hasThird : (ubusdEventCleanupObject obj second.reg).HasObject obj := by
    rw [Registry.HasObject, trees.1]
    exact hasSecond
  have pathThird : ((ubusdEventCleanupObject obj second.reg).object obj).path =
      (s.reg.object obj).path := by
    rw [object]
    exact (same.trans same').path obj
  have causeThird : second.cause = s.cause := does'.work.cause.trans does.work.cause
  have sends := sends_announceRemoval lib readyThird hasThird fun some' => by
    rw [show (second.mapReg (ubusdEventCleanupObject obj)).cause = s.cause from causeThird]
    exact occasion (pathThird ▸ some')
  have announced : Does lib keep wip _ _ := Does.of_sends readyThird.good sends
  set last := announceRemoval lib obj (second.mapReg (ubusdEventCleanupObject obj)) with lastDef
  have reg : last.reg = ubusdEventCleanupObject obj second.reg := sends.frame.reg
  have dropped : (dropObject obj last.reg).Ok := by
    refine good_dropObject announced.good done ?_ ?_ ?_ ?_ <;> rw [reg]
    · exact hasThird
    · rw [object]
      exact subscribers
    · rw [object]
      exact targets'
    · exact noEvents
  obtain ⟨objects', object', clients', client'⟩ := dropObject_keeps announced.good obj
  have final : Does lib keep none last (last.mapReg (dropObject obj)) :=
    ⟨Work.of_reg clients' client', dropped⟩
  have all := (((does.trans does').trans cleaned).trans announced).trans final
  refine ⟨all, ?_, ?_⟩
  · show (dropObject obj last.reg).objects = _
    rw [objects', reg, trees.1, (same.trans same').objects]
  intro other
  show ((dropObject obj last.reg).object other).client = _
  obtain ⟨_, otherObject⟩ := eventCleanup_object second.reg obj other
  rw [object', reg, otherObject]
  exact (same.trans same').client other

end Free

/-! ### Adding an object -/

section Create

variable (lib : Libubox) {keep : Nat → Prop} {s : State}

theorem unref_keeps (type : Nat) (reg : Registry) :
    (ubusUnrefObjectType type reg).clients = reg.clients ∧
      (ubusUnrefObjectType type reg).client = reg.client :=
  (unrefType_keeps (some type) reg).2.2

theorem getObjType_keeps (id : UInt32) (reg : Registry) :
    (ubusGetObjType id reg).2.clients = reg.clients ∧
      (ubusGetObjType id reg).2.client = reg.client := by
  unfold ubusGetObjType
  split <;> exact ⟨rfl, rfl⟩

theorem createObjType_keeps (sig : Bytes) (rnd : List UInt32) (reg : Registry) :
    (ubusCreateObjType lib sig rnd reg).2.2.clients = reg.clients ∧
      (ubusCreateObjType lib sig rnd reg).2.2.client = reg.client := by
  unfold ubusCreateObjType
  rcases result : ubusAllocId reg.objTypes reg.brk rnd with ⟨_ | ⟨id, objTypes⟩, rest⟩
  · simp [result]
  simp only [result]
  split
  · exact unref_keeps _ _
  · exact ⟨rfl, rfl⟩

theorem objectType_keeps (attr : Attrs) (rnd : List UInt32) (reg : Registry) :
    (objectType lib attr rnd reg).2.2.clients = reg.clients ∧
      (objectType lib attr rnd reg).2.2.client = reg.client := by
  unfold objectType
  split
  · exact getObjType_keeps _ reg
  · exact createObjType_keeps lib _ rnd reg
  · exact ⟨rfl, rfl⟩

theorem newObject_keeps (id : UInt32) (objects : AvlTree UInt32) (type : Option Nat) (reg : Registry) :
    (newObject id objects type reg).clients = reg.clients ∧
      (newObject id objects type reg).client = reg.client ∧
      (newObject id objects type reg).object = withObject reg id type := by
  unfold newObject
  simp only
  split <;> exact ⟨rfl, rfl, rfl⟩

theorem good_allocObject (good : reg.Ok) (attr : Attrs) (rnd : List UInt32) :
    let result := allocObject lib attr rnd reg
    result.2.2.Good result.1 none ∧ result.2.2.clients = reg.clients ∧
      result.2.2.client = reg.client ∧
      ∀ obj, result.1 = some obj → (result.2.2.object obj).path = none := by
  unfold allocObject
  simp only
  obtain ⟨clients, client⟩ := objectType_keeps lib attr rnd reg
  have typed := good_objectType lib good attr rnd
  rcases typing : objectType lib attr rnd reg with ⟨type, rnd', reg'⟩
  rw [typing] at typed clients client
  simp only at typed clients client ⊢
  obtain ⟨_, sameObject, sameClients, sameClient⟩ :=
    unrefType_keeps type (ubusdCreateObjectInternal type rnd' reg').2.2
  rw [sameClients, sameClient, sameObject]
  unfold ubusdCreateObjectInternal
  rcases result : ubusAllocId reg'.objects reg'.brk rnd' with ⟨_ | ⟨id, objects⟩, rest⟩
  · simp only [result]
    exact ⟨good_unrefType typed, clients, client, by rintro _ ⟨⟩⟩
  obtain ⟨range, rfl, absent⟩ := ubusAllocId_some result
  obtain ⟨newClients, newClient, newObjects⟩ :=
    newObject_keeps id (reg'.objects.insert id reg'.brk) type reg'
  simp only [result]
  refine ⟨good_unrefType (good_newObject typed range absent), newClients.trans clients,
    newClient.trans client, ?_⟩
  rintro obj ⟨⟩
  rw [newObjects, withObject_self]

theorem insertPath_keeps {obj : Nat} {key : CString} {after : Registry}
    (inserted : insertPath obj key reg = some after) :
    after.objects = reg.objects ∧ after.clients = reg.clients ∧ after.client = reg.client := by
  obtain ⟨path, _, rfl⟩ := Option.map_eq_some_iff.mp inserted
  exact ⟨rfl, rfl, rfl⟩

theorem linkObject_client (cl obj owner : Nat) (reg : Registry) :
    ((linkObject cl obj reg).client owner).id = (reg.client owner).id ∧
      ((linkObject cl obj reg).client owner).cred = (reg.client owner).cred :=
  ⟨update_keeps Client.id reg.client (by rfl) owner,
    update_keeps Client.cred reg.client (by rfl) owner⟩

theorem does_linkObject {obj : Nat} (good : s.reg.Good (some obj) none)
    (known : s.reg.HasClient cl) : Does lib keep none s (s.mapReg (linkObject cl obj)) :=
  ⟨Work.of_reg rfl fun owner => linkObject_client cl obj owner s.reg, good_linkObject good known⟩

/-- **`ubusd_create_object`.** -/
theorem does_createObject (ready : Ready keep none s) (known : s.reg.HasClient cl)
    (occasion : Occasion true s.cause) (attr : Attrs) :
    Does lib keep none s (ubusdCreateObject lib cl attr s).2 := by
  unfold ubusdCreateObject
  obtain ⟨good, clients, client, pathless⟩ := good_allocObject lib ready.good attr s.rnd
  rcases result : allocObject lib attr s.rnd s.reg with ⟨_ | obj, rnd, reg⟩
  · rw [result] at good clients client
    exact ⟨Work.of_reg clients fun cl => by rw [client]; simp, good⟩
  rw [result] at good clients client pathless
  simp only at good clients client pathless ⊢
  have made : Does lib keep (some obj) s { s with reg, rnd } :=
    ⟨Work.of_reg clients fun cl => by rw [client]; simp, good⟩
  have ready' := made.ready ready
  have known' : reg.HasClient cl := made.work.hasClient.mpr known
  have has : reg.HasObject obj := (good.owners.made obj rfl).1
  have freed := (does_freeObject lib ready' (fun _ same => (Option.some.inj same).symm) has
    fun some' => absurd (pathless obj rfl) some').1
  split
  · exact made.trans (does_linkObject lib good known')
  split
  · exact made.trans freed
  split
  · exact made.trans freed
  rename_i key _ after inserted
  have good' := good_insertPath good has (pathless obj rfl) inserted
  obtain ⟨sameObjects, sameClients, sameClient⟩ := insertPath_keeps inserted
  have published : Does lib keep (some obj) { s with reg, rnd } { s with reg := after, rnd } :=
    ⟨Work.of_reg sameClients fun cl => by rw [sameClient]; simp, good'⟩
  have ready'' := published.ready ready'
  have has' : after.HasObject obj := by
    rw [Registry.HasObject, sameObjects]
    exact has
  have sends := sends_sendObjEvent lib ready'' has' occasion
  have announced := Does.of_sends ready''.good sends
  refine ((made.trans published).trans announced).trans (does_linkObject lib announced.good ?_)
  rw [announced.work.hasClient, published.work.hasClient]
  exact known'

end Create

end Ubus
