/-
**Each event reaches each listener once** (`ubusd_send_event`).

* `Registry.Hears` — an object has a registered pattern that covers an event id.
* `events_spec` — the letters of one event: one for each object that hears it, is not the sender's and
  does not carry the number of this event already.
-/

import Ubus.Refine
import Ubus.Safety

namespace Ubus

open Lib

/-- An object has a registered pattern that covers an event id. -/
def Registry.Hears (reg : Registry) (obj : Nat) (id : CString) : Prop :=
  ∃ ev ∈ (reg.object obj).events,
    Covers (reg.eventSource ev).key (reg.eventSource ev).isPartial id

/-- The number of the next event. -/
def Stamps.nextEventSeq (stamps : Stamps) : UInt32 :=
  if stamps.objEventSeq + 1 = 0 then 1 else stamps.objEventSeq + 1

/-- The letter that brings an event to an object. -/
structure EventLetter (reg : Registry) (cause : Cause) (rest : List Put) (obj : Nat)
    (letter : Letter) : Prop where
  cause : letter.cause = cause
  dest : (reg.object obj).client = some letter.dest
  hdr : EventHdr letter.hdr
  data : letter.data = .built (.int32 .objid (reg.object obj).id :: rest)

/-- **The letters bring the event to exactly these objects, once each.** -/
def DeliveredTo (who : Nat → Prop) (reg : Registry) (cause : Cause) (rest : List Put)
    (new : List Letter) : Prop :=
  ∃ got : List Nat, got.Nodup ∧ (∀ obj, obj ∈ got ↔ who obj) ∧
    List.Forall₂ (EventLetter reg cause rest) got new

/-! ### The letters of one event -/

section Letters

variable {wip extra : Option Nat} {reg : Registry} {id : CString} {obj : Nat}

theorem mem_hearers (good : reg.Good wip extra) :
    obj ∈ reg.hearers id ↔ reg.HasObject obj ∧ reg.Hears obj id := by
  simp only [Registry.hearers, Registry.listeners, List.mem_map, List.mem_filter, decide_eq_true_eq]
  constructor
  · rintro ⟨node, ⟨member, covers⟩, rfl⟩
    obtain ⟨key, has, listed, -⟩ := good.patterns.owner node member
    exact ⟨has, node.2, listed, key ▸ covers⟩
  · rintro ⟨has, ev, listed, covers⟩
    obtain ⟨same, hasEv⟩ := good.patterns.events obj ev has listed
    obtain ⟨node, member, rfl⟩ := List.mem_map.mp hasEv
    exact ⟨node, ⟨member, (good.patterns.owner node member).1 ▸ covers⟩, same⟩

theorem hearer_owned (good : reg.Good wip extra) (hears : obj ∈ reg.hearers id) :
    ∃ dest, (reg.object obj).client = some dest := by
  obtain ⟨node, member, rfl⟩ := List.mem_map.mp hears
  exact (good.patterns.owner node (List.mem_filter.mp member).1).2.2.2

theorem events_spec (cl : Option Nat) (rest : List Put) (objs : List Nat) (b : Bus)
    (owned : ∀ obj ∈ objs, ∃ dest, (b.reg.object obj).client = some dest) :
    ∃ new, (objs.foldl (Bus.eventMsg cl rest) b).out = b.out ++ new ∧
      DeliveredTo (fun obj => obj ∈ objs ∧ (b.reg.object obj).client ≠ cl ∧
        b.stamps.eventSeen obj ≠ b.stamps.objEventSeq) b.reg b.cause rest new := by
  induction objs generalizing b with
  | nil => exact ⟨[], (List.append_nil _).symm, [], List.nodup_nil, by simp, .nil⟩
  | cons obj objs ih =>
    rw [List.foldl_cons]
    have ownedRest := fun other member => owned other (List.mem_cons_of_mem _ member)
    by_cases skipped : (b.reg.object obj).client = cl ∨
        b.stamps.eventSeen obj = b.stamps.objEventSeq
    · have same : b.eventMsg cl rest obj = b := by
        unfold Bus.eventMsg
        rcases skipped with own | seen
        · rw [if_pos own]
        · rw [if_pos seen, ite_self]
      obtain ⟨new, out, got, nodup, iff, letters⟩ := ih b ownedRest
      rw [same]
      refine ⟨new, out, got, nodup, fun other => (iff other).trans ?_, letters⟩
      constructor
      · exact fun ⟨member, holds⟩ => ⟨List.mem_cons_of_mem _ member, holds⟩
      rintro ⟨member, notOwn, notSeen⟩
      rcases List.mem_cons.mp member with rfl | member
      · exact absurd skipped (not_or.mpr ⟨notOwn, notSeen⟩)
      · exact ⟨member, notOwn, notSeen⟩
    · obtain ⟨notOwn, notSeen⟩ := not_or.mp skipped
      obtain ⟨dest, client⟩ := owned obj List.mem_cons_self
      obtain ⟨b', letter, sent, reg, cause, out', isLetter, seq, seen⟩ : ∃ b' letter,
          b.eventMsg cl rest obj = b' ∧ b'.reg = b.reg ∧ b'.cause = b.cause ∧
          b'.out = b.out ++ [letter] ∧ EventLetter b.reg b.cause rest obj letter ∧
          b'.stamps.objEventSeq = b.stamps.objEventSeq ∧
          b'.stamps.eventSeen = Function.update b.stamps.eventSeen obj b.stamps.objEventSeq := by
        unfold Bus.eventMsg
        rw [if_neg notOwn, if_neg notSeen, client]
        exact ⟨_, _, rfl, rfl, rfl, rfl, ⟨rfl, client, ⟨rfl, rfl, rfl⟩, rfl⟩, rfl, rfl⟩
      obtain ⟨new, out, got, nodup, iff, letters⟩ := ih b' (by rw [reg]; exact ownedRest)
      simp only [reg, cause, seq, seen] at iff letters
      have fresh : obj ∉ got := fun member =>
        ((iff obj).mp member).2.2 (Function.update_self ..)
      refine ⟨letter :: new, ?_, obj :: got, List.nodup_cons.mpr ⟨fresh, nodup⟩, ?_,
        .cons isLetter letters⟩
      · rw [sent, out, out', List.append_assoc]
        rfl
      intro other
      simp only [List.mem_cons, iff other]
      by_cases same : other = obj
      · subst same
        simp [notOwn, notSeen]
      · simp [same]

theorem forall₂_mem {α β : Type} {R : α → β → Prop} {first : List α} {second : List β}
    (all : List.Forall₂ R first second) :
    (∀ x ∈ first, ∃ y ∈ second, R x y) ∧ ∀ y ∈ second, ∃ x ∈ first, R x y := by
  induction all with
  | nil => exact ⟨(nomatch ·, ·), (nomatch ·, ·)⟩
  | @cons x y _ _ head _ ih =>
    refine ⟨fun a member => ?_, fun c member => ?_⟩
    · rcases List.mem_cons.mp member with rfl | member
      · exact ⟨y, List.mem_cons_self, head⟩
      · obtain ⟨c, inside, holds⟩ := ih.1 a member
        exact ⟨c, List.mem_cons_of_mem _ inside, holds⟩
    · rcases List.mem_cons.mp member with rfl | member
      · exact ⟨x, List.mem_cons_self, head⟩
      · obtain ⟨a, inside, holds⟩ := ih.2 c member
        exact ⟨a, List.mem_cons_of_mem _ inside, holds⟩

theorem EventLetter.unique {cause : Cause} {rest : List Put} {other : Nat} {letter : Letter}
    (good : reg.Good wip extra) (has : reg.HasObject obj) (has' : reg.HasObject other)
    (one : EventLetter reg cause rest obj letter) (two : EventLetter reg cause rest other letter) :
    obj = other := by
  have same := one.data.symm.trans two.data
  rw [Payload.built.injEq, List.cons.injEq, Put.int32.injEq] at same
  have found := (good.objects.find_iff.mpr ⟨has, rfl⟩)
  have found' := (good.objects.find_iff.mpr ⟨has', same.1.2.symm⟩)
  exact Option.some.inj (found.symm.trans found')

theorem DeliveredTo.unique {who who' : Nat → Prop} {cause : Cause} {rest : List Put}
    {new : List Letter} (good : reg.Good wip extra) (live : ∀ obj, who obj → reg.HasObject obj)
    (live' : ∀ obj, who' obj → reg.HasObject obj) (one : DeliveredTo who reg cause rest new)
    (two : DeliveredTo who' reg cause rest new) (obj : Nat) : who obj → who' obj := by
  obtain ⟨got, -, iff, letters⟩ := one
  obtain ⟨got', -, iff', letters'⟩ := two
  intro holds
  obtain ⟨letter, member, brings⟩ := (forall₂_mem letters).1 obj ((iff obj).mpr holds)
  obtain ⟨other, inside, brings'⟩ := (forall₂_mem letters').2 letter member
  have holds' := (iff' other).mp inside
  rwa [brings.unique good (live obj holds) (live' other holds') brings']

theorem sendEvent_delivers (lib : Libubox) {cl : Option Nat} {b : Bus} (good : b.reg.Good wip extra)
    (allowed : ubusdAclCheck lib b.reg.acl.entries (cl.map fun cl => (b.reg.client cl).cred)
      (some id) none .send = 0) (rest : List Put) :
    ∃ new, (b.sendEvent lib cl id rest).2.out = b.out ++ new ∧
      DeliveredTo (fun obj => (b.reg.HasObject obj ∧ b.reg.Hears obj id) ∧
        (b.reg.object obj).client ≠ cl ∧ b.stamps.eventSeen obj ≠ b.stamps.nextEventSeq)
        b.reg b.cause rest new := by
  rw [Bus.sendEvent, if_neg (not_not.mpr allowed)]
  obtain ⟨new, out, got, nodup, iff, letters⟩ := events_spec cl rest (b.reg.hearers id)
    b.bumpObjEventSeq fun obj hears => hearer_owned good hears
  exact ⟨new, out, got, nodup, fun obj => (iff obj).trans (and_congr (mem_hearers good) Iff.rfl),
    letters⟩

end Letters

/-! ### Exactly once -/

section Once

variable {lib : Libubox} {wip : Option Nat} {s : State} {cl : Option Nat} {id : CString}

/-- The objects that should get an event. -/
def Registry.Listener (reg : Registry) (cl : Option Nat) (id : CString) (obj : Nat) : Prop :=
  (reg.HasObject obj ∧ reg.Hears obj id) ∧ (reg.object obj).client ≠ cl

theorem event_delivered (good : s.reg.Good wip none) (funded : Funded s)
    (allowed : ubusdAclCheck lib s.reg.acl.entries (cl.map fun cl => (s.reg.client cl).cred)
      (some id) none .send = 0) (rest : List Put) :
    ∃ new, letters (ubusdSendEvent lib cl id rest s).2.trace = letters s.trace ++ new ∧
      (DeliveredTo (s.reg.Listener cl id) s.reg s.cause rest new ↔
        ∀ obj, s.reg.Listener cl id obj → s.stamps.eventSeen obj ≠ s.stamps.nextEventSeq) := by
  have shows := (shows_event lib cl id rest (⟨rfl, funded⟩ : Shows s s.bus)
    good.patterns.sorted).shows
  have good' : s.bus.reg.Good wip none := good
  obtain ⟨new, out, delivered⟩ := sendEvent_delivers lib good' allowed rest
  refine ⟨new, (congrArg Bus.out shows.bus).trans out, fun all obj listens => ?_, fun fresh => ?_⟩
  · exact (DeliveredTo.unique good (fun obj listens => listens.1.1)
      (fun obj listens => listens.1.1) all delivered obj listens).2.2
  · obtain ⟨got, nodup, iff, letters⟩ := delivered
    refine ⟨got, nodup, fun obj => (iff obj).trans ?_, letters⟩
    exact ⟨fun holds => ⟨holds.1, holds.2.1⟩, fun listens => ⟨listens.1, listens.2, fresh obj listens⟩⟩

/-- **Every event reaches every listener exactly once**, unless the `event_seen` of a listener is the
number that the event is about to get. -/
theorem delivers_once_iff (good : s.reg.Good wip none) (funded : Funded s)
    (allowed : ubusdAclCheck lib s.reg.acl.entries (cl.map fun cl => (s.reg.client cl).cred)
      (some id) none .send = 0) (more : List Put) :
    ∃ new, letters (ubusdSendEvent lib cl id (.string .method id :: more) s).2.trace =
        letters s.trace ++ new ∧
      (DeliveredTo (s.reg.Listener cl id) s.reg s.cause (.string .method id :: more) new ↔
        ∀ obj, s.reg.Listener cl id obj → s.stamps.eventSeen obj ≠ s.stamps.nextEventSeq) :=
  event_delivered good funded allowed _

end Once

/-! ### When the counter comes round -/

section Wrap

/-- A client listens to the event `x`, and another one sends it. -/
def listenRun : List Input :=
  [connects rootCred 5000,
    receives 3 (Blob.message .addObject 1 0 []) false,
    receives 3 (Blob.message .invoke 2 1 [.int32 .objid 1, .string .method (cstr "register"),
      .nest .data [.msgU32 (cstr "object") 4001, .msgString (cstr "pattern") (cstr "x")]]) false,
    connects rootCred 6000,
    receives 6 (Blob.message .invoke 3 1 [.int32 .objid 1, .string .method (cstr "send"),
      .nest .data [.msgString (cstr "id") (cstr "x"), .msgTable (some (cstr "data")) []]]) false]

theorem delivers_once_first : ∃ s, s = run Blob.libubox (listenRun.take 4) State.init ∧
    s.reg.Listener (some 6) (cstr "x") 4 ∧ ∃ new,
      letters (ubusdSendEvent Blob.libubox (some 6) (cstr "x")
        [.string .method (cstr "x")] s).2.trace = letters s.trace ++ new ∧
      DeliveredTo (s.reg.Listener (some 6) (cstr "x")) s.reg s.cause
        [.string .method (cstr "x")] new := by
  have good := (reachable_run Blob.libubox (listenRun.take 4)).inv.good
  refine ⟨_, rfl, ⟨⟨?_, 5, ?_, ?_⟩, ?_⟩, ?_⟩
  · decide +kernel
  · decide +kernel
  · decide +kernel
  · decide +kernel
  · have funded : Funded (run Blob.libubox (listenRun.take 4) State.init) := by
      unfold Funded
      decide +kernel
    have fresh : ∀ node ∈ (run Blob.libubox (listenRun.take 4) State.init).reg.objects,
        (run Blob.libubox (listenRun.take 4) State.init).stamps.eventSeen node.2 ≠
          (run Blob.libubox (listenRun.take 4) State.init).stamps.nextEventSeq := by
      decide +kernel
    have allowed : ubusdAclCheck Blob.libubox
        (run Blob.libubox (listenRun.take 4) State.init).reg.acl.entries
        ((some 6).map fun cl =>
          ((run Blob.libubox (listenRun.take 4) State.init).reg.client cl).cred)
        (some (cstr "x")) none .send = 0 := by
      decide +kernel
    obtain ⟨new, out, iff⟩ := delivers_once_iff good funded allowed []
    refine ⟨new, out, iff.mpr fun obj listens => ?_⟩
    obtain ⟨node, member, rfl⟩ := List.mem_map.mp listens.1.1
    exact fresh node member

/-- A directory with nothing to load. -/
def idleDir : Directory where
  files := [{ name := cstr "a", isReg := false, uid := 0, gid := 0, mode := 0, blob := none }]
  nodup := by decide

/-- The access lists are loaded. -/
def idleLoad : Input :=
  { action := .aclLoad { getpwnam := fun _ => none, getgrnam := fun _ => none } idleDir false }

/-- Apart from the access lists and the event counter, nothing that matters has changed. -/
structure Waited (count : Nat) (s s' : State) : Prop where
  object : s'.reg.object = s.reg.object
  objects : s'.reg.objects = s.reg.objects
  eventSource : s'.reg.eventSource = s.reg.eventSource
  patterns : s'.reg.patterns = s.reg.patterns
  client : s'.reg.client = s.reg.client
  seen : s'.stamps.eventSeen = s.stamps.eventSeen
  seq : s'.stamps.objEventSeq = (fun seq => if seq + 1 = 0 then 1 else seq + 1)^[count]
    s.stamps.objEventSeq
  allocs : count ≠ 0 → s'.allocs = []

theorem sendEvent_unheard (lib : Libubox) {s : State} (sorted : s.reg.patterns.Sorted) {id : CString}
    (alone : s.reg.listeners id = []) (rest : List Put) :
    (ubusdSendEvent lib none id rest s).2 = bumpObjEventSeq s := by
  have walk : eventWalk lib none id rest (bumpObjEventSeq s) = (.ok, none, bumpObjEventSeq s) := by
    rw [eventWalk_eq lib none id rest (s := bumpObjEventSeq s) sorted]
    show foldStop _ (s.reg.listeners id) _ = _
    rw [alone]
    rfl
  have allowed : ubusdAclCheck lib s.reg.acl.entries (none.map fun cl => (s.reg.client cl).cred)
      (some id) none .send = 0 := rfl
  rw [ubusdSendEvent, if_neg (not_not.mpr allowed), walk]
  rfl

theorem step_idleLoad (lib : Libubox) {s : State} (sorted : s.reg.patterns.Sorted)
    (alone : s.reg.listeners (cstr "ubus.acl.sequence") = []) : Waited 1 s (step lib s idleLoad) := by
  unfold step act idleLoad aclLoadAndAnnounce
  simp only
  generalize loaded : State.mapReg (fun reg => { reg with acl := ubusdAclLoad lib _ _ false reg.acl })
    { s with writes := [], allocs := [], rnd := [], cause := .aclLoad } = t
  have same : Waited 0 s t := by
    rw [← loaded]
    exact ⟨rfl, rfl, rfl, rfl, rfl, rfl, rfl, fun absurd => (absurd rfl).elim⟩
  have allocs : t.allocs = [] := by rw [← loaded]; rfl
  rw [show glob idleDir false = some idleDir.files from rfl]
  simp only
  rw [sendEvent_unheard lib (same.patterns ▸ sorted) (by
    rw [Registry.listeners, same.patterns, same.eventSource]
    exact alone)]
  obtain ⟨object, objects, source, patterns, client, seen, seq, -⟩ := same
  refine ⟨object, objects, source, patterns, client, seen, ?_, fun _ => allocs⟩
  show (if t.stamps.objEventSeq + 1 = 0 then 1 else t.stamps.objEventSeq + 1) = _
  rw [seq]
  rfl

theorem Waited.trans {count count' : Nat} {s s' s'' : State} (one : Waited count s s')
    (two : Waited (count' + 1) s' s'') : Waited (count' + 1 + count) s s'' where
  object := two.object.trans one.object
  objects := two.objects.trans one.objects
  eventSource := two.eventSource.trans one.eventSource
  patterns := two.patterns.trans one.patterns
  client := two.client.trans one.client
  seen := two.seen.trans one.seen
  seq := by rw [two.seq, one.seq, ← Function.iterate_add_apply]
  allocs := fun _ => two.allocs (Nat.succ_ne_zero _)

theorem run_idleLoads (lib : Libubox) {s : State} (sorted : s.reg.patterns.Sorted)
    (alone : s.reg.listeners (cstr "ubus.acl.sequence") = []) (count : Nat) :
    Waited count s (run lib (List.replicate count idleLoad) s) := by
  induction count with
  | zero => exact ⟨rfl, rfl, rfl, rfl, rfl, rfl, rfl, fun absurd => (absurd rfl).elim⟩
  | succ count ih =>
    rw [List.replicate_succ', run, List.foldl_append]
    have next := step_idleLoad lib (ih.patterns.symm ▸ sorted) (by
      rw [Registry.listeners, ih.patterns, ih.eventSource]
      exact alone)
    rw [Nat.add_comm]
    exact ih.trans next

theorem counter_round {count : Nat} (bound : count + 2 < 2 ^ 32) :
    (fun seq : UInt32 => if seq + 1 = 0 then 1 else seq + 1)^[count] 2 = UInt32.ofNat (count + 2) := by
  induction count with
  | zero => rfl
  | succ count ih =>
    rw [Function.iterate_succ_apply', ih (by omega)]
    have next : UInt32.ofNat (count + 2) + 1 = UInt32.ofNat (count + 1 + 2) := by
      rw [show (1 : UInt32) = UInt32.ofNat 1 from rfl, ← UInt32.ofNat_add]
    have notZero : UInt32.ofNat (count + 1 + 2) ≠ 0 := by
      intro zero
      have := congrArg UInt32.toNat zero
      rw [UInt32.toNat_ofNat_of_lt' bound] at this
      cases this
    simp only [next, if_neg notZero]

theorem counter_wraps :
    (fun seq : UInt32 => if seq + 1 = 0 then 1 else seq + 1)^[2 ^ 32 - 3 + 1] 2 = 1 := by
  rw [Function.iterate_succ_apply', counter_round (by omega)]
  decide

/-- Events that nobody hears follow, until the counter has come round. -/
def wrapRun : List Input := listenRun ++ List.replicate (2 ^ 32 - 3 + 1) idleLoad

/-- **A listener misses an event** when the counter has come round to the last event it got. -/
theorem stale_listener_misses : ∃ s, s = run Blob.libubox wrapRun State.init ∧
    Reachable Blob.libubox s ∧ Funded s ∧ s.reg.Listener (some 6) (cstr "x") 4 ∧
      ∀ more, ∃ new, letters (ubusdSendEvent Blob.libubox (some 6) (cstr "x")
          (.string .method (cstr "x") :: more) s).2.trace = letters s.trace ++ new ∧
        ¬ DeliveredTo (s.reg.Listener (some 6) (cstr "x")) s.reg s.cause
          (.string .method (cstr "x") :: more) new := by
  obtain ⟨t, start⟩ : ∃ t, run Blob.libubox listenRun State.init = t := ⟨_, rfl⟩
  have sorted : t.reg.patterns.Sorted :=
    start ▸ (reachable_run Blob.libubox listenRun).inv.good.patterns.sorted
  have alone : t.reg.listeners (cstr "ubus.acl.sequence") = [] := by
    rw [← start]
    decide +kernel
  have waited := run_idleLoads Blob.libubox sorted alone (2 ^ 32 - 3 + 1)
  have split : run Blob.libubox wrapRun State.init =
      run Blob.libubox (List.replicate (2 ^ 32 - 3 + 1) idleLoad) t := by
    rw [wrapRun, run, List.foldl_append, ← start]
    rfl
  have reachable := reachable_run Blob.libubox wrapRun
  rw [← split] at waited
  generalize run Blob.libubox wrapRun State.init = s at waited reachable ⊢
  have seen : s.stamps.eventSeen 4 = 2 := by
    rw [waited.seen, ← start]
    decide +kernel
  have next : s.stamps.nextEventSeq = 2 := by
    have begun : t.stamps.objEventSeq = 2 := by
      rw [← start]
      decide +kernel
    rw [Stamps.nextEventSeq, waited.seq, begun, counter_wraps]
    decide
  have listens : s.reg.Listener (some 6) (cstr "x") 4 := by
    refine ⟨⟨?_, 5, ?_, ?_⟩, ?_⟩
    · rw [Registry.HasObject, waited.objects, ← start]
      decide +kernel
    · rw [waited.object, ← start]
      decide +kernel
    · rw [waited.eventSource, ← start]
      decide +kernel
    · rw [waited.object, ← start]
      decide +kernel
  have funded : Funded s := by
    intro ok member
    rw [waited.allocs (Nat.succ_ne_zero _)] at member
    cases member
  have root : (s.reg.client 6).cred.uid = 0 := by
    rw [waited.client, ← start]
    decide +kernel
  have allowed : ubusdAclCheck Blob.libubox s.reg.acl.entries
      ((some 6).map fun cl => (s.reg.client cl).cred) (some (cstr "x")) none .send = 0 := by
    simp [ubusdAclCheck, root]
  refine ⟨s, rfl, reachable, funded, listens, fun more => ?_⟩
  obtain ⟨new, out, iff⟩ := event_delivered reachable.inv.good funded allowed
    (.string .method (cstr "x") :: more)
  exact ⟨new, out, fun all => iff.mp all 4 listens (seen.trans next.symm)⟩

end Wrap

end Ubus
