/-
**Subscriptions, and the notices about them** (`ubus_notify_subscription`, `ubus_notify_unsubscribe`).

* `activeFlags cl id out` — the `ACTIVE` flags that a client was sent about an object id.
* `Told b` — for every client and every id they alternate from `true` on, and the last one is whether
  the client has a live object of this id with a subscriber.
* `farewells out` — the `UNSUBSCRIBE` messages that were sent.
-/

import Mathlib.Data.List.Chain
import Ubus.Deeds
import Ubus.Untouched

namespace Ubus

open Lib

variable {sub : Nat} {objs : List Nat} {now : Prop} {letter : Letter}

/-- The letters of a type. -/
def lettersOf (type : MsgType) (out : List Letter) : List Letter :=
  out.filter fun letter => letter.hdr.type = type.code

/-- The flag of a letter to a client about an object id. -/
def Letter.active (cl : Nat) (id : UInt32) (letter : Letter) : Option Bool :=
  match letter.data with
  | .built [.int32 .objid objid, .int8 .active flag] =>
    if letter.dest = cl ∧ objid = id then some (flag ≠ 0) else none
  | _ => none

/-- **The `ACTIVE` flags that a client was sent about an object id**, oldest first. -/
def activeFlags (cl : Nat) (id : UInt32) (out : List Letter) : List Bool :=
  (lettersOf .notify out).filterMap (Letter.active cl id)

/-- **The `UNSUBSCRIBE` messages**, with the client each went to. -/
def farewells (out : List Letter) : List (Option Nat × Payload) :=
  (lettersOf .unsubscribe out).map fun letter => (some letter.dest, letter.data)

/-- The message about a subscription that ends because its target goes. -/
def Registry.farewell (reg : Registry) (sub : Nat) : Option Nat × Payload :=
  ((reg.object (reg.subscription sub).subscriber).client,
    .built [.int32 .objid (reg.object (reg.subscription sub).subscriber).id,
      .int32 .target (reg.object (reg.subscription sub).target).id])

/-- The flags alternate from `true` on, and the last one is whether `now` holds; no flag counts as
`false`. -/
structure Alternates (now : Prop) (flags : List Bool) : Prop where
  chain : flags.IsChain (· ≠ ·)
  first : flags.head? ≠ some false
  last : flags.getLastD false = true ↔ now

/-- The client has a live object of this id that has a subscriber. -/
def Registry.Watched (reg : Registry) (cl : Nat) (id : UInt32) : Prop :=
  ∃ obj, reg.HasObject obj ∧ (reg.object obj).id = id ∧ (reg.object obj).client = some cl ∧
    (reg.object obj).subscribers ≠ []

/-- **What the clients were told agrees with the registry.** -/
def Told (b : Bus) : Prop :=
  ∀ cl id, Alternates (b.reg.Watched cl id) (activeFlags cl id b.out)

theorem Alternates.push {flags : List Bool} (alternates : Alternates now flags) {next : Bool}
    (changes : next = true ↔ ¬ now) : Alternates (next = true) (flags ++ [next]) := by
  obtain ⟨chain, first, last⟩ := alternates
  rcases List.eq_nil_or_concat flags with rfl | ⟨front, flag, rfl⟩
  · have notNow : ¬ now := fun holds => by cases last.mpr holds
    rw [changes.mpr notNow]
    exact ⟨List.isChain_singleton _, by simp, by simp⟩
  · have differs : flag ≠ next := by
      rintro rfl
      rw [List.concat_eq_append, List.getLastD_concat] at last
      exact iff_not_self (last.symm.trans changes)
    refine ⟨?_, ?_, by simp⟩
    · rw [List.isChain_append]
      refine ⟨chain, List.isChain_singleton _, ?_⟩
      simp [differs]
    · cases front <;> simpa using first

theorem Alternates.congr {now' : Prop} {flags : List Bool} (alternates : Alternates now flags)
    (same : now ↔ now') : Alternates now' flags :=
  ⟨alternates.chain, alternates.first, alternates.last.trans same⟩

/-! ### Letters that are no notices -/

section Letters

variable {P : Letter → Prop} {b b' : Bus}

theorem lettersOf_append (type : MsgType) (out new : List Letter) :
    lettersOf type (out ++ new) = lettersOf type out ++ lettersOf type new :=
  List.filter_append ..

theorem activeFlags_append (cl : Nat) (id : UInt32) (out new : List Letter) :
    activeFlags cl id (out ++ new) = activeFlags cl id out ++ activeFlags cl id new := by
  rw [activeFlags, lettersOf_append, List.filterMap_append, activeFlags, activeFlags]

theorem farewells_append (out new : List Letter) :
    farewells (out ++ new) = farewells out ++ farewells new := by
  rw [farewells, lettersOf_append, List.map_append, farewells, farewells]

theorem lettersOf_eq_nil {type : MsgType} {new : List Letter}
    (others : ∀ letter ∈ new, letter.hdr.type ≠ type.code) : lettersOf type new = [] :=
  List.filter_eq_nil_iff.mpr fun letter member => by simpa using others letter member

theorem Bus.Adds.flags (adds : Bus.Adds P b b')
    (others : ∀ letter, P letter → letter.hdr.type ≠ MsgType.notify.code) (cl : Nat) (id : UInt32) :
    activeFlags cl id b'.out = activeFlags cl id b.out := by
  obtain ⟨-, new, out, all⟩ := adds
  rw [out, activeFlags_append]
  nth_rewrite 2 [activeFlags]
  rw [lettersOf_eq_nil fun letter member => others letter (all letter member).2, List.filterMap_nil,
    List.append_nil]

theorem Bus.Adds.farewells (adds : Bus.Adds P b b')
    (others : ∀ letter, P letter → letter.hdr.type ≠ MsgType.unsubscribe.code) :
    farewells b'.out = farewells b.out := by
  obtain ⟨-, new, out, all⟩ := adds
  rw [out, farewells_append]
  nth_rewrite 2 [Ubus.farewells]
  rw [lettersOf_eq_nil fun letter member => others letter (all letter member).2, List.map_nil,
    List.append_nil]

theorem Letter.Plain.type_ne (plain : letter.Plain) :
    letter.hdr.type ≠ MsgType.notify.code ∧ letter.hdr.type ≠ MsgType.unsubscribe.code := by
  rcases plain with typed | typed | ⟨typed, -⟩ <;> rw [typed] <;> decide

theorem type_ne_of_invoke (typed : letter.hdr.type = MsgType.invoke.code) :
    letter.hdr.type ≠ MsgType.notify.code ∧ letter.hdr.type ≠ MsgType.unsubscribe.code := by
  rw [typed]
  decide

end Letters

/-! ### The subscribers of one object change -/

section Change

variable {wip extra : Option Nat} {reg reg' : Registry} {target owner : Nat} {b : Bus}

theorem Told.of_same {b' : Bus} (told : Told b)
    (flags : ∀ cl id, activeFlags cl id b'.out = activeFlags cl id b.out)
    (watched : ∀ cl id, b'.reg.Watched cl id ↔ b.reg.Watched cl id) : Told b' := by
  intro cl id
  rw [flags]
  exact (told cl id).congr (watched cl id).symm

theorem watched_congr (objects : reg'.objects = reg.objects)
    (id : ∀ obj, (reg'.object obj).id = (reg.object obj).id)
    (client : ∀ obj, (reg'.object obj).client = (reg.object obj).client)
    (subscribers : ∀ obj, (reg'.object obj).subscribers = (reg.object obj).subscribers)
    (cl : Nat) (objid : UInt32) : reg'.Watched cl objid ↔ reg.Watched cl objid := by
  simp only [Registry.Watched, Registry.HasObject, objects, id, client, subscribers]

/-- Only the subscribers of one object differ. -/
structure Regrouped (target : Nat) (reg reg' : Registry) : Prop where
  objects : reg'.objects = reg.objects
  id : ∀ obj, (reg'.object obj).id = (reg.object obj).id
  client : ∀ obj, (reg'.object obj).client = (reg.object obj).client
  others : ∀ obj, obj ≠ target → (reg'.object obj).subscribers = (reg.object obj).subscribers

theorem Regrouped.refl (target : Nat) (reg : Registry) : Regrouped target reg reg :=
  ⟨rfl, fun _ => rfl, fun _ => rfl, fun _ _ => rfl⟩

theorem Regrouped.watched_here (regrouped : Regrouped target reg reg') (good : reg.Good wip extra)
    (has : reg.HasObject target) (owned : (reg.object target).client = some owner) :
    reg'.Watched owner (reg.object target).id ↔ (reg'.object target).subscribers ≠ [] := by
  constructor
  · rintro ⟨obj, live, id, -, some⟩
    rw [Registry.HasObject, regrouped.objects] at live
    rw [regrouped.id] at id
    have found := good.objects.find_iff.mpr ⟨live, id⟩
    rw [good.objects.find_iff.mpr ⟨has, rfl⟩] at found
    cases found
    exact some
  · intro some
    refine ⟨target, ?_, regrouped.id target, (regrouped.client target).trans owned, some⟩
    rw [Registry.HasObject, regrouped.objects]
    exact has

theorem Regrouped.watched_other (regrouped : Regrouped target reg reg')
    (owned : (reg.object target).client = some owner) {cl : Nat} {id : UInt32}
    (other : ¬ (owner = cl ∧ (reg.object target).id = id)) :
    reg'.Watched cl id ↔ reg.Watched cl id := by
  unfold Registry.Watched
  refine exists_congr fun obj => ?_
  rw [Registry.HasObject, regrouped.objects, regrouped.id, regrouped.client]
  by_cases same : obj = target
  · subst same
    constructor
    · rintro ⟨-, id, client, -⟩
      exact absurd ⟨Option.some.inj (owned.symm.trans client), id⟩ other
    · rintro ⟨-, id, client, -⟩
      exact absurd ⟨Option.some.inj (owned.symm.trans client), id⟩ other
  · rw [regrouped.others obj same]
    exact Iff.rfl

theorem flags_notifySubscription (owned : (b.reg.object target).client = some owner) (cl : Nat)
    (id : UInt32) : activeFlags cl id (b.notifySubscription target).out =
      activeFlags cl id b.out ++ if owner = cl ∧ (b.reg.object target).id = id then
        [decide ((b.reg.object target).subscribers ≠ [])] else [] := by
  have out : (b.notifySubscription target).out = b.out ++ [⟨b.cause, owner,
      { type := MsgType.notify.code, seq := b.stamps.invokeSeq target + 1, peer := 0 },
      .built [.int32 .objid (b.reg.object target).id, .int8 .active
        (if (b.reg.object target).subscribers.isEmpty then 0 else 1)]⟩] := by
    simp only [Bus.notifySubscription, Bus.sendNumbered, Bus.submitTo, owned, Bus.submit]
  rw [out, activeFlags_append]
  congr 1
  simp only [activeFlags, lettersOf, decide_true, List.filter_cons_of_pos, List.filter_nil,
    List.filterMap_cons, Letter.active, List.filterMap_nil]
  split
  · rename_i here
    split at here
    · cases here
    · rename_i other
      rw [if_neg other]
  · rename_i flag here
    split at here
    · rename_i same
      cases here
      rw [if_pos same]
      cases (b.reg.object target).subscribers <;> rfl
    · cases here

/-- **The owner is told when the first subscriber comes or the last one goes.** -/
theorem Told.changed (told : Told b) (good : b.reg.Good wip extra) (has : b.reg.HasObject target)
    (owned : (b.reg.object target).client = some owner) (regrouped : Regrouped target b.reg reg')
    (differs : (reg'.object target).subscribers ≠ [] ↔ (b.reg.object target).subscribers = []) :
    Told (Bus.notifySubscription target { b with reg := reg' }) := by
  have owned' : (reg'.object target).client = some owner := (regrouped.client target).trans owned
  have same : (Bus.notifySubscription target { b with reg := reg' }).reg = reg' :=
    Bus.sendNumbered_reg ..
  intro cl id
  rw [flags_notifySubscription owned', same]
  simp only [regrouped.id]
  split
  · rename_i here
    obtain ⟨rfl, rfl⟩ := here
    have before := (Regrouped.refl target b.reg).watched_here good has owned
    have after := regrouped.watched_here good has owned
    have next : decide ((reg'.object target).subscribers ≠ []) = true ↔
        ¬ b.reg.Watched owner (b.reg.object target).id := by
      rw [before, decide_eq_true_iff, not_not]
      exact differs
    exact ((told owner (b.reg.object target).id).push next).congr (decide_eq_true_iff.trans after.symm)
  · rename_i other
    rw [List.append_nil]
    exact (told cl id).congr (regrouped.watched_other owned other).symm

theorem Told.unchanged (told : Told b) (good : b.reg.Good wip extra) (has : b.reg.HasObject target)
    (owned : (b.reg.object target).client = some owner) (regrouped : Regrouped target b.reg reg')
    (same : (reg'.object target).subscribers ≠ [] ↔ (b.reg.object target).subscribers ≠ []) :
    Told { b with reg := reg' } := by
  refine told.of_same (fun _ _ => rfl) fun cl id => ?_
  by_cases here : owner = cl ∧ (b.reg.object target).id = id
  · obtain ⟨rfl, rfl⟩ := here
    have before := (Regrouped.refl target b.reg).watched_here good has owned
    exact (regrouped.watched_here good has owned).trans (same.trans before.symm)
  · exact regrouped.watched_other owned here

theorem told_subscribe (told : Told b) (good : b.reg.Good wip extra) {obj cl : Nat}
    (has : b.reg.HasObject target) (mine : (b.reg.object obj).client = some cl)
    (owned : (b.reg.object target).client = some owner) (differs : cl ≠ owner) :
    Told (b.subscribe obj target) := by
  have distinct : obj ≠ target := by
    rintro rfl
    exact differs (Option.some.inj (mine.symm.trans owned))
  have object := newSubscription_object b.reg distinct
  have regrouped : Regrouped target b.reg (newSubscription obj target b.reg) :=
    ⟨rfl, fun other => by rw [object], fun other => by rw [object], fun other apart => by
      rw [object]
      exact if_neg apart⟩
  have some : ((newSubscription obj target b.reg).object target).subscribers ≠ [] := by
    rw [object]
    simp
  unfold Bus.subscribe
  simp only
  split
  · rename_i first
    exact told.changed good has owned regrouped (iff_of_true some (List.isEmpty_iff.mp first))
  · rename_i later
    exact told.unchanged good has owned regrouped
      (iff_of_true some fun none => later (List.isEmpty_iff.mpr none))

theorem regrouped_unlink (linked : Linked reg sub) :
    Regrouped (reg.subscription sub).target reg (unlinkSubscription sub reg) := by
  have object := unlinkSubscription_object reg linked.distinct
  exact ⟨rfl, fun other => by rw [object], fun other => by rw [object], fun other apart => by
    rw [object]
    exact if_neg apart⟩

theorem told_unsubscribe (told : Told b) (good : b.reg.Good wip extra) (linked : Linked b.reg sub) :
    Told (b.unsubscribe sub) := by
  obtain ⟨owner, owned⟩ := linked.owned
  have some : (b.reg.object (b.reg.subscription sub).target).subscribers ≠ [] :=
    List.ne_nil_of_mem linked.listed
  unfold Bus.unsubscribe
  simp only
  split
  · rename_i last
    exact told.changed good linked.hasTarget owned (regrouped_unlink linked)
      (iff_of_false (not_not.mpr (List.isEmpty_iff.mp last)) some)
  · rename_i more
    exact told.unchanged good linked.hasTarget owned (regrouped_unlink linked)
      (iff_of_true (fun none => more (List.isEmpty_iff.mpr none)) some)

end Change

/-! ### An object goes -/

section Free

variable {wip : Option Nat} (lib : Libubox) {b : Bus} {obj : Nat}

/-- Subscriptions lead to the same objects, with the same ids and owners. -/
structure SameNames (reg reg' : Registry) : Prop where
  subscription : reg'.subscription = reg.subscription
  id : ∀ obj, (reg'.object obj).id = (reg.object obj).id
  client : ∀ obj, (reg'.object obj).client = (reg.object obj).client

theorem SameNames.trans {reg reg' reg'' : Registry} (one : SameNames reg reg')
    (two : SameNames reg' reg'') : SameNames reg reg'' :=
  ⟨two.subscription.trans one.subscription, fun obj => (two.id obj).trans (one.id obj),
    fun obj => (two.client obj).trans (one.client obj)⟩

theorem SameNames.farewell {reg reg' : Registry} (same : SameNames reg reg') (sub : Nat) :
    reg'.farewell sub = reg.farewell sub := by
  simp only [Registry.farewell, same.subscription, same.id, same.client]

theorem sameNames_unlink (sub : Nat) (reg : Registry) :
    SameNames reg (unlinkSubscription sub reg) := by
  refine ⟨rfl, fun other => ?_, fun other => ?_⟩ <;>
    simp only [unlinkSubscription, Registry.mapObject]
  · rw [update_keeps Object.id _ (by rfl), update_keeps Object.id _ (by rfl)]
  · rw [update_keeps Object.client _ (by rfl), update_keeps Object.client _ (by rfl)]

theorem sameNames_unlinkAll (subs : List Nat) (reg : Registry) : SameNames reg (reg.unlinkAll subs) := by
  induction subs generalizing reg with
  | nil => exact ⟨rfl, fun _ => rfl, fun _ => rfl⟩
  | cons sub rest ih => exact (sameNames_unlink sub reg).trans (ih (unlinkSubscription sub reg))

theorem Linked.unlink {reg : Registry} {other : Nat} (linked : Linked reg sub)
    (linked' : Linked reg other) (differs : other ≠ sub) :
    Linked (unlinkSubscription sub reg) other := by
  have same := regrouped_unlink linked
  obtain ⟨hasTarget, hasSubscriber, listed, owned, owned', distinct⟩ := linked'
  refine ⟨hasTarget, hasSubscriber, ?_, ?_, ?_, distinct⟩
  · show other ∈ ((unlinkSubscription sub reg).object (reg.subscription other).target).subscribers
    rw [unlinkSubscription_object reg linked.distinct]
    simp only
    split
    · exact (List.mem_erase_of_ne differs).mpr listed
    · exact listed
  · show ∃ cl, ((unlinkSubscription sub reg).object (reg.subscription other).target).client = some cl
    rw [same.client]
    exact owned
  · show ∃ cl, ((unlinkSubscription sub reg).object (reg.subscription other).subscriber).client =
      some cl
    rw [same.client]
    exact owned'

/-- What ending subscriptions keeps; `sent` are the messages about it. -/
structure Parted (wip : Option Nat) (sent : List (Option Nat × Payload)) (b b' : Bus) : Prop where
  told : Told b'
  good : b'.reg.Good wip none
  names : SameNames b.reg b'.reg
  farewells : farewells b'.out = farewells b.out ++ sent

theorem Parted.refl (told : Told b) (good : b.reg.Good wip none) : Parted wip [] b b :=
  ⟨told, good, ⟨rfl, fun _ => rfl, fun _ => rfl⟩, (List.append_nil _).symm⟩

theorem Parted.trans {b' b'' : Bus} {sent sent' : List (Option Nat × Payload)}
    (one : Parted wip sent b b') (two : Parted wip sent' b' b'') : Parted wip (sent ++ sent') b b'' :=
  ⟨two.told, two.good, one.names.trans two.names, by
    rw [two.farewells, one.farewells, List.append_assoc]⟩

theorem parted_unsubscribe (told : Told b) (good : b.reg.Good wip none)
    (linked : Linked b.reg sub) : Parted wip [] b (b.unsubscribe sub) := by
  refine ⟨told_unsubscribe told good linked, ?_, ?_, ?_⟩
  · rw [Bus.unsubscribe_reg]
    exact good_unlinkSubscription good linked.hasTarget linked.listed
  · rw [Bus.unsubscribe_reg]
    exact sameNames_unlink sub b.reg
  · rw [List.append_nil]
    exact (Bus.adds_unsubscribe b sub).farewells fun _ typed => by rw [typed]; decide

theorem parted_notifyUnsubscribe (told : Told b) (good : b.reg.Good wip none)
    (linked : Linked b.reg sub) : Parted wip [b.reg.farewell sub] b (b.notifyUnsubscribe sub) := by
  obtain ⟨cl, client⟩ := linked.owned'
  unfold Bus.notifyUnsubscribe
  simp only
  generalize sentTo : Bus.sendNumbered _ _ _ b = b'
  have reg : b'.reg = b.reg := by
    rw [← sentTo]
    exact Bus.sendNumbered_reg ..
  have told' : Told b' := by
    rw [← sentTo]
    refine told.of_same ((Bus.adds_sendNumbered _ _ _ b).flags fun _ typed => ?_) fun cl id => ?_
    · rw [typed]
      decide
    · rw [Bus.sendNumbered_reg]
  have first : Parted wip [b.reg.farewell sub] b b' := by
    refine ⟨told', reg ▸ good, ?_, ?_⟩
    · rw [reg]
      exact ⟨rfl, fun _ => rfl, fun _ => rfl⟩
    · rw [← sentTo, Bus.sendNumbered, client, Bus.submitTo, Bus.submit, farewells_append]
      congr 1
      simp [farewells, lettersOf, Registry.farewell, client]
  exact first.trans (parted_unsubscribe told' (reg ▸ good) (reg ▸ linked))

/-- **Subscriptions end one after the other.** -/
theorem parted_foldl (sent : Registry → Nat → List (Option Nat × Payload)) {end_ : Bus → Nat → Bus}
    (same : ∀ {reg reg' : Registry}, SameNames reg reg' → sent reg' = sent reg)
    (unlinks : ∀ b sub, (end_ b sub).reg = unlinkSubscription sub b.reg)
    (round : ∀ b sub, Told b → b.reg.Good wip none → Linked b.reg sub →
      Parted wip (sent b.reg sub) b (end_ b sub)) (subs : List Nat) (b : Bus) (told : Told b)
    (good : b.reg.Good wip none) (nodup : subs.Nodup) (linked : ∀ sub ∈ subs, Linked b.reg sub) :
    Parted wip (subs.flatMap (sent b.reg)) b (subs.foldl end_ b) := by
  induction subs generalizing b with
  | nil => exact .refl told good
  | cons sub rest ih =>
    obtain ⟨fresh, nodup⟩ := List.nodup_cons.mp nodup
    have here := linked sub List.mem_cons_self
    have first := round b sub told good here
    have later := ih (end_ b sub) first.told first.good nodup fun other member => by
      rw [unlinks]
      refine here.unlink (linked other (List.mem_cons_of_mem _ member)) ?_
      rintro rfl
      exact fresh member
    rw [same first.names] at later
    exact first.trans later

theorem unlinkAll_subscribers (subs : List Nat) (reg : Registry)
    (apart : ∀ sub ∈ subs, (reg.subscription sub).target ≠ obj) :
    ((reg.unlinkAll subs).object obj).subscribers = (reg.object obj).subscribers := by
  induction subs generalizing reg with
  | nil => rfl
  | cons sub rest ih =>
    have here := (apart sub List.mem_cons_self).symm
    rw [Registry.unlinkAll, List.foldl_cons, ← Registry.unlinkAll,
      ih (unlinkSubscription sub reg) fun other member =>
        apart other (List.mem_cons_of_mem _ member)]
    unfold unlinkSubscription
    simp only [Registry.mapObject]
    rw [update_keeps Object.subscribers _ (by rfl), Function.update_of_ne here]

theorem watched_dropObject {reg : Registry} (good : reg.Good wip none)
    (alone : (reg.object obj).subscribers = []) (cl : Nat) (id : UInt32) :
    (dropObject obj reg).Watched cl id ↔ reg.Watched cl id := by
  obtain ⟨objects, object, -, -⟩ := dropObject_keeps good obj
  simp only [Registry.Watched, Registry.HasObject, objects, object, AvlTree.has_delete]
  refine exists_congr fun other => ⟨fun holds => ⟨holds.1.1, holds.2⟩, fun holds => ?_⟩
  refine ⟨⟨holds.1, ?_⟩, holds.2⟩
  rintro rfl
  exact holds.2.2.2 alone

/-- **An object goes**: its subscribers are told, and nobody else. -/
theorem told_freeObject (told : Told b) (good : b.reg.Good wip none) (has : b.reg.HasObject obj) :
    Told (b.freeObject lib obj) ∧ farewells (b.freeObject lib obj).out =
      farewells b.out ++ (b.reg.object obj).subscribers.map b.reg.farewell := by
  have start : Freeing (fun _ => True) wip obj b.reg b.reg := ⟨.refl b.reg, good, rfl, fun _ => rfl⟩
  obtain ⟨first, targets⟩ := freeing_targets has trivial _ start rfl
  have parted := parted_foldl (fun _ _ => []) (fun _ => rfl) Bus.unsubscribe_reg
    (fun b sub told good linked => parted_unsubscribe told good linked)
    (b.reg.object obj).targetList b told good (good.subs.nodupTargets obj has)
    fun sub member => (good.linked_of_target has member).1
  have kept : ((b.reg.unlinkAll (b.reg.object obj).targetList).object obj).subscribers =
      (b.reg.object obj).subscribers := unlinkAll_subscribers _ b.reg fun sub member => by
    obtain ⟨linked, subscriber⟩ := good.linked_of_target has member
    exact fun target => linked.distinct (subscriber.trans target.symm)
  unfold Bus.freeObject
  simp only
  rw [← Bus.unsubscribes_reg] at first targets kept
  generalize (b.reg.object obj).targetList.foldl Bus.unsubscribe b = b₁ at *
  have has₁ := first.has has
  have start₁ : Freeing (fun _ => True) wip obj b₁.reg b₁.reg :=
    ⟨.refl b₁.reg, first.good, rfl, fun _ => rfl⟩
  obtain ⟨second, -, alone⟩ := freeing_subscribers has₁ trivial _ start₁ targets rfl
  have parted₁ := parted_foldl (fun reg sub => [reg.farewell sub])
    (fun same => funext fun sub => by rw [same.farewell]) Bus.notifyUnsubscribe_reg
    (fun b sub told good linked => parted_notifyUnsubscribe told good linked)
    (b₁.reg.object obj).subscribers b₁ parted.told first.good
    (first.good.subs.nodupSubscribers obj has₁)
    fun sub member => (first.good.linked_of_subscriber has₁ member).1
  rw [← Bus.notifyUnsubscribes_reg] at second alone
  generalize (b₁.reg.object obj).subscribers.foldl Bus.notifyUnsubscribe b₁ = b₂ at *
  have third : Freeing (fun _ => True) wip obj b₁.reg (ubusdEventCleanupObject obj b₂.reg) :=
    freeing_events has₁ trivial _ second rfl
  obtain ⟨_, object⟩ := eventCleanup_object b₂.reg obj obj
  have told₃ : Told (b₂.mapReg (ubusdEventCleanupObject obj)) := by
    refine parted₁.told.of_same (fun _ _ => rfl) (watched_congr ?_ ?_ ?_ ?_)
    · exact third.objects.trans second.objects.symm
    all_goals
      intro other
      obtain ⟨_, same⟩ := eventCleanup_object b₂.reg obj other
      simp only [Bus.mapReg, same]
  have announced := Bus.adds_announceRemoval lib obj (b₂.mapReg (ubusdEventCleanupObject obj))
  have reg : (Bus.announceRemoval lib obj (b₂.mapReg (ubusdEventCleanupObject obj))).reg =
      ubusdEventCleanupObject obj b₂.reg := Bus.announceRemoval_reg ..
  refine ⟨told₃.of_same (announced.flags fun _ typed => (type_ne_of_invoke typed).1) ?_, ?_⟩
  · intro cl id
    show (dropObject obj _).Watched cl id ↔ (ubusdEventCleanupObject obj b₂.reg).Watched cl id
    rw [reg]
    refine watched_dropObject third.good ?_ cl id
    rw [object]
    exact alone
  · calc farewells _ = farewells b₂.out :=
          announced.farewells fun _ typed => (type_ne_of_invoke typed).2
      _ = farewells b₁.out ++ (b₁.reg.object obj).subscribers.map b₁.reg.farewell := by
          rw [parted₁.farewells, List.map_eq_flatMap]
      _ = farewells b.out ++ (b.reg.object obj).subscribers.map b.reg.farewell := by
          rw [parted.farewells, kept, funext parted.names.farewell]
          simp

theorem eventCleanup_subscription (obj : Nat) (reg : Registry) :
    (ubusdEventCleanupObject obj reg).subscription = reg.subscription := by
  unfold ubusdEventCleanupObject
  generalize (reg.object obj).events = events
  induction events generalizing reg with
  | nil => rfl
  | cons ev rest ih => exact ih (ubusdDeleteEventSource reg ev)

theorem dropObject_subscription {reg : Registry} (good : reg.Good wip none) (obj : Nat) :
    (dropObject obj reg).subscription = reg.subscription := by
  rw [dropObject_eq good, (unrefType_rest _ _).1, withoutObject, unlinkObject_eq]

theorem freeObject_keeps {reg : Registry} (good : reg.Good wip none) (has : reg.HasObject obj) :
    SameNames reg (reg.freeObject obj) ∧ ∀ {other cl : Nat}, reg.HasObject other → other ≠ obj →
      (reg.object obj).client = some cl → (reg.object other).client = some cl →
      ((reg.freeObject obj).object other).subscribers = (reg.object other).subscribers := by
  have start : Freeing (fun _ => True) wip obj reg reg := ⟨.refl reg, good, rfl, fun _ => rfl⟩
  obtain ⟨first, targets⟩ := freeing_targets has trivial _ start rfl
  have names := sameNames_unlinkAll (reg.object obj).targetList reg
  have kept : ∀ {other cl : Nat}, reg.HasObject other →
      (reg.object obj).client = some cl → (reg.object other).client = some cl →
      ((reg.unlinkAll (reg.object obj).targetList).object other).subscribers =
        (reg.object other).subscribers := by
    intro other cl live mine mine'
    refine unlinkAll_subscribers _ reg fun sub member target => ?_
    obtain ⟨linked, subscriber⟩ := good.linked_of_target has member
    obtain ⟨cl', owner, client, client', differ⟩ := good.subs.owners _ sub linked.hasTarget linked.listed
    rw [subscriber, mine] at client
    rw [target, mine'] at client'
    exact differ (Option.some.inj (client.symm.trans client'))
  unfold Registry.freeObject
  simp only
  generalize reg.unlinkAll _ = one at *
  have has₁ := first.has has
  have start₁ : Freeing (fun _ => True) wip obj one one := ⟨.refl one, first.good, rfl, fun _ => rfl⟩
  obtain ⟨second, -, -⟩ := freeing_subscribers has₁ trivial _ start₁ targets rfl
  have names₁ := sameNames_unlinkAll (one.object obj).subscribers one
  have kept₁ : ∀ {other : Nat}, other ≠ obj →
      ((one.unlinkAll (one.object obj).subscribers).object other).subscribers =
        (one.object other).subscribers := by
    intro other apart
    refine unlinkAll_subscribers _ one fun sub member target => ?_
    obtain ⟨-, here⟩ := first.good.linked_of_subscriber has₁ member
    exact apart (target.symm.trans here)
  generalize one.unlinkAll _ = two at *
  have third : Freeing (fun _ => True) wip obj one (ubusdEventCleanupObject obj two) :=
    freeing_events has₁ trivial _ second rfl
  obtain ⟨-, object, -, -⟩ := dropObject_keeps third.good obj
  have same : ∀ other, ∃ events, (dropObject obj (ubusdEventCleanupObject obj two)).object other =
      { two.object other with events } := fun other => by
    rw [object]
    exact eventCleanup_object two obj other
  have subscription := (dropObject_subscription third.good obj).trans
    (eventCleanup_subscription obj two)
  refine ⟨(names.trans names₁).trans ⟨subscription, fun other => ?_, fun other => ?_⟩, ?_⟩
  · obtain ⟨_, object⟩ := same other
    rw [object]
  · obtain ⟨_, object⟩ := same other
    rw [object]
  intro other cl live apart mine mine'
  obtain ⟨_, object⟩ := same other
  rw [object]
  exact (kept₁ apart).trans (kept live mine mine')

/-- The subscriptions to some objects. -/
def Registry.subscriptionsTo (reg : Registry) (objs : List Nat) : List Nat :=
  objs.flatMap fun obj => (reg.object obj).subscribers

/-- **Objects of one client go.** -/
theorem told_freeObjects {cl : Nat} (objs : List Nat) {b : Bus} (told : Told b) (good : b.reg.Ok)
    (nodup : objs.Nodup)
    (mine : ∀ obj ∈ objs, b.reg.HasObject obj ∧ (b.reg.object obj).client = some cl) :
    Told (objs.foldl (Bus.freeObject lib) b) ∧ (objs.foldl (Bus.freeObject lib) b).reg.Ok ∧
      farewells (objs.foldl (Bus.freeObject lib) b).out =
        farewells b.out ++ (b.reg.subscriptionsTo objs).map b.reg.farewell ∧
      ∀ obj, (objs.foldl (Bus.freeObject lib) b).reg.HasObject obj ↔
        b.reg.HasObject obj ∧ obj ∉ objs := by
  induction objs generalizing b with
  | nil => exact ⟨told, good, (List.append_nil _).symm, fun obj => by simp⟩
  | cons obj rest ih =>
    obtain ⟨fresh, nodup⟩ := List.nodup_cons.mp nodup
    obtain ⟨has, owned⟩ := mine obj List.mem_cons_self
    obtain ⟨told₁, sent⟩ := told_freeObject lib told good has
    obtain ⟨-, ok, removed⟩ : Leaves (fun _ => True) _ _ ∧ _ :=
      Leaves.freeObject good (by rintro _ ⟨⟩) has trivial
    obtain ⟨names, kept⟩ := freeObject_keeps good has
    rw [← Bus.freeObject_reg lib] at ok removed names kept
    have live : ∀ other, (b.freeObject lib obj).reg.HasObject other ↔
        b.reg.HasObject other ∧ other ≠ obj := fun other => by
      rw [Registry.HasObject, removed.objects, AvlTree.has_delete]
      exact Iff.rfl
    have mine₁ : ∀ other ∈ rest, (b.freeObject lib obj).reg.HasObject other ∧
        ((b.freeObject lib obj).reg.object other).client = some cl := by
      intro other member
      obtain ⟨hasOther, ownedOther⟩ := mine other (List.mem_cons_of_mem _ member)
      refine ⟨(live other).mpr ⟨hasOther, ?_⟩, (names.client other).trans ownedOther⟩
      rintro rfl
      exact fresh member
    have same : (b.freeObject lib obj).reg.subscriptionsTo rest = b.reg.subscriptionsTo rest := by
      refine List.flatMap_congr fun other member => ?_
      obtain ⟨hasOther, ownedOther⟩ := mine other (List.mem_cons_of_mem _ member)
      refine kept hasOther ?_ owned ownedOther
      rintro rfl
      exact fresh member
    obtain ⟨told₂, ok₂, sent₂, live₂⟩ := ih told₁ ok nodup mine₁
    refine ⟨told₂, ok₂, ?_, fun other => ?_⟩
    · rw [List.foldl_cons, sent₂, sent, same, funext names.farewell, List.append_assoc,
        ← List.map_append]
      rfl
    · rw [List.foldl_cons, live₂, live, List.mem_cons, not_or, and_assoc]

/-- The subscriptions that end because their target goes. -/
def EndsWithTarget (reg reg' : Registry) (sub : Nat) : Prop :=
  reg.HasSub sub ∧ ¬ reg'.HasSub sub ∧ ¬ reg'.HasObject (reg.subscription sub).target

theorem endsWithTarget_iff {reg reg' : Registry} (good : reg.Ok) (good' : reg'.Ok)
    (subs : ∀ sub, reg'.HasSub sub → reg'.subscription sub = reg.subscription sub)
    (mine : ∀ obj ∈ objs, reg.HasObject obj)
    (live : ∀ obj, reg'.HasObject obj ↔ reg.HasObject obj ∧ obj ∉ objs) (sub : Nat) :
    sub ∈ reg.subscriptionsTo objs ↔ EndsWithTarget reg reg' sub := by
  constructor
  · intro member
    obtain ⟨obj, inside, listed⟩ := List.mem_flatMap.mp member
    obtain ⟨linked, target⟩ := good.linked_of_subscriber (mine obj inside) listed
    have gone : ¬ reg'.HasObject (reg.subscription sub).target := fun has =>
      ((live _).mp has).2 (target.symm ▸ inside)
    refine ⟨⟨obj, mine obj inside, listed⟩, fun has => ?_, gone⟩
    have ends := (good'.sub_ends has).2
    rw [subs sub has] at ends
    exact gone ends
  · rintro ⟨⟨obj, has, listed⟩, -, gone⟩
    obtain ⟨linked, target⟩ := good.linked_of_subscriber has listed
    rw [target, live, not_and, not_not] at gone
    exact List.mem_flatMap.mpr ⟨obj, gone has, listed⟩

theorem nodup_subscriptionsTo {reg : Registry} (good : reg.Ok) (nodup : objs.Nodup)
    (mine : ∀ obj ∈ objs, reg.HasObject obj) : (reg.subscriptionsTo objs).Nodup := by
  refine List.nodup_flatMap.mpr ⟨fun obj member => good.subs.nodupSubscribers obj (mine obj member), ?_⟩
  refine nodup.imp_of_mem fun {obj other} member member' differs sub listed listed' => ?_
  obtain ⟨-, target⟩ := good.linked_of_subscriber (mine obj member) listed
  obtain ⟨-, target'⟩ := good.linked_of_subscriber (mine other member') listed'
  exact differs (target.symm.trans target')

end Free

/-! ### An object comes -/

section Create

variable (lib : Libubox) {b : Bus} {cl : Nat}

theorem Leaves.watched {mine : Nat → Prop} {wip wip' extra extra' : Option Nat} {reg reg' : Registry}
    (leaves : Leaves mine reg reg') (good : reg.Good wip extra) (good' : reg'.Good wip' extra')
    (new : ∀ obj, mine obj → ¬ reg.HasObject obj) (owner : Nat) (id : UInt32) :
    reg'.Watched owner id ↔ reg.Watched owner id := by
  have back : ∀ {obj sub : Nat}, reg'.HasObject obj → sub ∈ (reg'.object obj).subscribers →
      reg.HasObject obj ∧ sub ∈ (reg.object obj).subscribers := by
    intro obj sub live listed
    obtain ⟨⟨other, has, listed'⟩, same⟩ := leaves.subs sub ⟨obj, live, listed⟩
    have target := (good'.subs.subscribers obj sub live listed).1
    have target' := (good.subs.subscribers other sub has listed').1
    rw [same, target'] at target
    exact target ▸ ⟨has, listed'⟩
  constructor
  · rintro ⟨obj, live, objid, client, some⟩
    obtain ⟨sub, listed⟩ := List.exists_mem_of_ne_nil _ some
    obtain ⟨has, listed'⟩ := back live listed
    have same := (leaves.object obj has fun is => new obj is has).same
    rw [same] at objid client
    exact ⟨obj, has, objid, client, List.ne_nil_of_mem listed'⟩
  · rintro ⟨obj, has, objid, client, some⟩
    obtain ⟨sub, listed⟩ := List.exists_mem_of_ne_nil _ some
    obtain ⟨live, same, -, -⟩ := leaves.object obj has fun is => new obj is has
    have ends := good.subs.subscribers obj sub has listed
    rcases leaves.ended sub ⟨obj, has, listed⟩ with has' | is | is
    · obtain ⟨other, live', listed'⟩ := has'
      have target := (good'.subs.subscribers other sub live' listed').1
      rw [(leaves.subs sub ⟨other, live', listed'⟩).2, ends.1] at target
      subst target
      exact ⟨obj, live, by rw [same]; exact objid, by rw [same]; exact client,
        List.ne_nil_of_mem listed'⟩
    · exact absurd ends.2.1 (new _ is)
    · exact absurd has (ends.1 ▸ new _ is)

theorem adds_freeObject_alone {obj : Nat} (targets : (b.reg.object obj).targetList = [])
    (subscribers : (b.reg.object obj).subscribers = []) :
    Bus.Adds (·.hdr.type = MsgType.invoke.code) b (b.freeObject lib obj) := by
  have announced := Bus.adds_announceRemoval lib obj (b.mapReg (ubusdEventCleanupObject obj))
  unfold Bus.freeObject
  simp only [targets, List.foldl_nil, subscribers]
  exact ⟨announced.cause, announced.out⟩

theorem adds_createObject_event (good : b.reg.Ok) (attr : Attrs) :
    Bus.Adds (·.hdr.type = MsgType.invoke.code) b (b.createObject lib cl attr).2 := by
  obtain ⟨good', -, -, -⟩ := good_allocObject lib good attr b.rnd
  unfold Bus.createObject
  generalize allocObject lib attr b.rnd b.reg = result at good' ⊢
  obtain ⟨_ | obj, rnd, reg⟩ := result
  · exact .of_eq rfl rfl
  obtain ⟨has, ownerless, -⟩ := good'.owners.made obj rfl
  obtain ⟨subscribers, targets, -⟩ := good'.unlinked has ownerless
  have freed : Bus.Adds (·.hdr.type = MsgType.invoke.code) b
      (Bus.freeObject lib { b with reg, rnd } obj) :=
    Bus.Adds.after (adds_freeObject_alone lib (b := { b with reg, rnd }) targets subscribers) rfl rfl
  simp only
  split
  · exact .of_eq rfl rfl
  split
  · exact freed
  split
  · exact freed
  rename_i after _
  have announced := Bus.adds_sendEvent lib none (objEventId true)
    (objectEventMsg (objEventId true) (after.object obj)) { b with reg := after, rnd }
  exact ⟨announced.cause, announced.out⟩

end Create

/-! ### Every step -/

section Round

variable {lib : Libubox} {b b' : Bus} {cl : Nat}

theorem Told.adds {P : Letter → Prop} (told : Told b) (adds : Bus.Adds P b b')
    (others : ∀ letter, P letter → letter.hdr.type ≠ MsgType.notify.code)
    (watched : ∀ cl id, b'.reg.Watched cl id ↔ b.reg.Watched cl id) : Told b' :=
  told.of_same (adds.flags others) watched

theorem Told.posts (told : Told b) (posts : Bus.Posts Letter.Plain b b') : Told b' :=
  told.adds posts.adds (fun _ plain => plain.type_ne.1) fun _ _ => by rw [posts.reg]

theorem farewells_posts (posts : Bus.Posts Letter.Plain b b') : farewells b'.out = farewells b.out :=
  posts.adds.farewells fun _ plain => plain.type_ne.2

/-- **What a step does to the subscriptions**: those in `ended` end because their target goes, and
their owners are told. -/
structure Parts (b b' : Bus) (ended : List Nat) : Prop where
  told : Told b'
  nodup : ended.Nodup
  iff : ∀ sub, sub ∈ ended ↔ EndsWithTarget b.reg b'.reg sub
  farewells : farewells b'.out = farewells b.out ++ ended.map b.reg.farewell

theorem Parts.of_live (good : b.reg.Ok) (told : Told b')
    (live : ∀ obj, b.reg.HasObject obj → b'.reg.HasObject obj)
    (same : Ubus.farewells b'.out = Ubus.farewells b.out) : Parts b b' [] := by
  refine ⟨told, List.nodup_nil, fun sub => ⟨nofun, fun ends => ?_⟩, ?_⟩
  · exact absurd (live _ (good.sub_ends ends.1).2) ends.2.2
  · rw [same, List.map_nil, List.append_nil]

theorem Parts.of_same {P : Letter → Prop} (good : b.reg.Ok) (told : Told b) (adds : Bus.Adds P b b')
    (others : ∀ letter, P letter → letter.hdr.type ≠ MsgType.notify.code ∧
      letter.hdr.type ≠ MsgType.unsubscribe.code) (objects : b'.reg.objects = b.reg.objects)
    (object : ∀ obj, (b'.reg.object obj).id = (b.reg.object obj).id ∧
      (b'.reg.object obj).client = (b.reg.object obj).client ∧
      (b'.reg.object obj).subscribers = (b.reg.object obj).subscribers) : Parts b b' [] := by
  refine .of_live good (told.adds adds (fun letter holds => (others letter holds).1) ?_) ?_
    (adds.farewells fun letter holds => (others letter holds).2)
  · exact watched_congr objects (fun obj => (object obj).1) (fun obj => (object obj).2.1)
      fun obj => (object obj).2.2
  · intro obj has
    rw [Registry.HasObject, objects]
    exact has

theorem parts_freeObjects (lib : Libubox) (told : Told b) (good : b.reg.Ok) (nodup : objs.Nodup)
    (mine : ∀ obj ∈ objs, b.reg.HasObject obj ∧ (b.reg.object obj).client = some cl) :
    Parts b (objs.foldl (Bus.freeObject lib) b) (b.reg.subscriptionsTo objs) := by
  obtain ⟨told', good', sent, live⟩ := told_freeObjects lib objs told good nodup mine
  have leaves : Leaves (fun _ => True) b.reg (objs.foldl (fun reg obj => reg.freeObject obj) b.reg) :=
    .freeObjects objs good nodup fun obj member => ⟨(mine obj member).1, trivial⟩
  rw [← Bus.freeObjects_reg] at leaves
  have has : ∀ obj ∈ objs, b.reg.HasObject obj := fun obj member => (mine obj member).1
  exact ⟨told', nodup_subscriptionsTo good nodup has,
    endsWithTarget_iff good good' (fun sub has => (leaves.subs sub has).2) has live, sent⟩

/-- **A deed**, and the subscriptions that end with their target. -/
theorem Bus.Deed.parts (deed : Bus.Deed lib cl b b') (told : Told b) (good : b.reg.Ok)
    (good' : b'.reg.Ok) : ∃ ended, Parts b b' ended := by
  have quiet : ∀ {b' : Bus}, b'.cause = b.cause → b'.out = b.out →
      b'.reg.objects = b.reg.objects → (∀ obj, (b'.reg.object obj).id = (b.reg.object obj).id ∧
        (b'.reg.object obj).client = (b.reg.object obj).client ∧
        (b'.reg.object obj).subscribers = (b.reg.object obj).subscribers) →
      ∃ ended, Parts b b' ended := fun cause out objects object =>
    ⟨[], .of_same good told (.of_eq cause out : Bus.Adds (fun _ => False) _ _) nofun objects object⟩
  cases deed with
  | same => exact quiet rfl rfl rfl fun _ => ⟨rfl, rfl, rfl⟩
  | created attr =>
    have adds : Bus.Adds _ b (b.createObject lib cl attr).2 := adds_createObject_event lib good attr
    have leaves : Leaves _ b.reg (b.reg.createObject lib cl attr b.rnd).2 :=
      Leaves.createObject lib good attr b.rnd
    rw [← Bus.createObject_reg lib attr b] at leaves
    refine ⟨[], .of_live good (told.adds adds (fun _ typed => (type_ne_of_invoke typed).1)
      (leaves.watched good good' fun _ => id)) (fun obj has => ?_)
      (adds.farewells fun _ typed => (type_ne_of_invoke typed).2)⟩
    exact (leaves.object obj has (not_not.mpr has)).live
  | @freed obj has mine =>
    have parts : Parts b ([obj].foldl (Bus.freeObject lib) b) _ :=
      parts_freeObjects lib told good (List.nodup_singleton obj) fun other member => by
        rw [List.mem_singleton.mp member]
        exact ⟨has, mine⟩
    exact ⟨_, parts⟩
  | subscribed has mine hasTarget owned differs =>
    refine ⟨[], .of_live good (told_subscribe told good hasTarget mine owned differs) (fun obj has => ?_)
      ((Bus.adds_subscribe _ _ b).farewells fun _ typed => by rw [typed]; decide)⟩
    rw [Bus.subscribe_reg]
    exact has
  | unsubscribed has mine listed =>
    have linked := (good.linked_of_target has listed).1
    refine ⟨[], .of_live good (told_unsubscribe told good linked) (fun obj has => ?_)
      ((Bus.adds_unsubscribe b _).farewells fun _ typed => by rw [typed]; decide)⟩
    rw [Bus.unsubscribe_reg]
    exact has
  | registered has mine key isPartial =>
    refine quiet rfl rfl rfl fun other => ⟨?_, ?_, ?_⟩
    · exact update_keeps Object.id b.reg.object (by rfl) other
    · exact update_keeps Object.client b.reg.object (by rfl) other
    · exact update_keeps Object.subscribers b.reg.object (by rfl) other
  | sent id body free =>
    refine ⟨[], .of_same good told (Bus.adds_sendEvent lib _ _ _ b)
      (fun _ typed => type_ne_of_invoke typed) ?_ ?_⟩
    · rw [Bus.sendEvent_reg]
    · rw [Bus.sendEvent_reg]
      exact fun _ => ⟨rfl, rfl, rfl⟩
  | monitors list => exact quiet rfl rfl rfl fun _ => ⟨rfl, rfl, rfl⟩

/-- **A step of the bus**, and the subscriptions that end with their target. -/
theorem Bus.Round.parts (round : Bus.Round lib b b') (told : Told b) (good : b.reg.Ok)
    (good' : b'.reg.Ok) : ∃ ended, Parts b b' ended := by
  cases round with
  | rest cause rnd same =>
    subst same
    exact ⟨[], .of_live good told (fun _ has => has) rfl⟩
  | connect cred same =>
    subst same
    obtain ⟨adds, _, _, _, reg, -⟩ := Bus.connect_spec cred b
    have parts := Parts.of_same (b := { b with cause := .connect b.reg.brk }) good told adds
      (fun _ typed => by rw [typed]; decide) (by rw [reg]) fun obj => by
        rw [reg]
        exact ⟨rfl, rfl, rfl⟩
    exact ⟨[], parts.told, parts.nodup, parts.iff, parts.farewells⟩
  | message cause cl known through =>
    obtain ⟨b₁, b₂, before, deed, after⟩ := through
    have told₁ : Told b₁ := Told.posts (b := { b with cause }) told before
    have reg₁ : b₁.reg = b.reg := before.reg
    have reg₂ : b'.reg = b₂.reg := after.reg
    obtain ⟨ended, told₂, nodup, iff, sent⟩ := deed.parts told₁ (reg₁ ▸ good) (reg₂ ▸ good')
    rw [reg₁, ← reg₂] at iff
    rw [reg₁, ← farewells_posts after, farewells_posts before] at sent
    exact ⟨ended, told₂.posts after, nodup, iff, sent⟩
  | disconnect cl known same =>
    subst same
    obtain ⟨start, here⟩ : ∃ start : Bus, start =
      { b with cause := .disconnect cl, monitors := b.monitors.erase cl } := ⟨_, rfl⟩
    have reg : start.reg = b.reg := by rw [here]
    have parts : Parts start ((b.reg.client cl).objects.foldl (Bus.freeObject lib) start) _ :=
      parts_freeObjects lib (told.of_same (fun _ _ => by rw [here]) fun _ _ => by rw [reg])
        (reg ▸ good) (good.owners.nodup cl known) fun obj member => by
          rw [reg]
          exact (good.owners.listed cl obj known).mp member
    subst here
    exact ⟨_, parts.told.of_same (fun _ _ => rfl) fun _ _ => Iff.rfl, parts.nodup, parts.iff,
      parts.farewells⟩
  | aclLoad host dir fault same =>
    subst same
    obtain ⟨adds, _, reg⟩ := Bus.aclLoad_spec lib host dir fault b
    have parts := Parts.of_same (b := { b with cause := .aclLoad }) good told adds
      (fun _ typed => type_ne_of_invoke typed) (by rw [reg]) fun obj => by
        rw [reg]
        exact ⟨rfl, rfl, rfl⟩
    exact ⟨[], parts.told, parts.nodup, parts.iff, parts.farewells⟩

end Round

/-! ### Every state -/

section Sound

variable {lib : Libubox} {s : State}

theorem told_init : Told State.init.bus := by
  intro cl id
  refine ⟨List.isChain_nil, nofun, ⟨nofun, ?_⟩⟩
  rintro ⟨obj, has, -, client, -⟩
  have known := (good_init.owners.owned obj cl has client).1
  cases known

theorem told_of_sound (sound : Sound lib s) : Told s.bus := by
  refine Sound.induction (P := fun w => Told w.bus) told_init (fun w w' step told => ?_) sound
  obtain ⟨_, parts⟩ := step.round.parts told w.good w'.good
  exact parts.told

/-- **Subscriptions and the notices about them agree.** The `ACTIVE` flags that the owner of a live
object was sent alternate from `true` on, and the last one is whether the object has a subscriber; when
the object is gone it is `false`. A move sends one `UNSUBSCRIBE` for each subscription that ends because
its target goes, to the owner of the subscriber and with both ids, and no other. -/
theorem subscriptions_told (sound : Sound lib s) :
    (∀ obj cl, s.reg.HasObject obj → (s.reg.object obj).client = some cl →
      Alternates ((s.reg.object obj).subscribers ≠ [])
        (activeFlags cl (s.reg.object obj).id (letters s.trace))) ∧
    (∀ cl id, (∀ obj, s.reg.HasObject obj → (s.reg.object obj).client = some cl →
        (s.reg.object obj).id ≠ id) →
      Alternates False (activeFlags cl id (letters s.trace))) ∧
    ∀ s', SoundMove lib s s' → ∃ ended : List Nat, ended.Nodup ∧
      (∀ sub, sub ∈ ended ↔ EndsWithTarget s.reg s'.reg sub) ∧
      farewells (letters s'.trace) = farewells (letters s.trace) ++ ended.map s.reg.farewell := by
  have told := told_of_sound sound
  have good : s.reg.Ok := sound.inv.good
  refine ⟨fun obj cl has owned => ?_, fun cl id none => ?_, fun s' move => ?_⟩
  · exact (told cl _).congr ((Regrouped.refl obj s.reg).watched_here good has owned)
  · refine (told cl id).congr (iff_false_intro ?_)
    rintro ⟨obj, has, here, client, -⟩
    exact none obj has client here
  · obtain ⟨ended, parts⟩ := (sound.step move).round.parts told good (sound.tail move).inv.good
    exact ⟨ended, parts.nodup, parts.iff, parts.farewells⟩

/-- A client subscribes its object to the object of another client. -/
def watchRun : List Input :=
  [connects rootCred 5000, receives 3 (Blob.message .addObject 1 0 []) false,
    connects rootCred 6000, receives 5 (Blob.message .addObject 1 0 []) false,
    receives 5 (Blob.message .subscribe 2 0 [.int32 .objid 4002, .int32 .target 4001]) false]

theorem subscriptions_told_disconnect : ∃ s, s = run Blob.libubox watchRun State.init ∧
    (s.reg.object 4).subscribers = [7] ∧ activeFlags 3 4001 (letters s.trace) = [true] ∧
    Alternates ((s.reg.object 4).subscribers ≠ []) (activeFlags 3 4001 (letters s.trace)) ∧
    ∃ ended : List Nat, 7 ∈ ended ∧
      farewells (letters (handleClientDisconnect Blob.libubox 3 s).trace) =
        farewells (letters s.trace) ++ ended.map s.reg.farewell := by
  have sound := sound_run Blob.libubox watchRun (by decide)
  have id : ((run Blob.libubox watchRun State.init).reg.object 4).id = 4001 := by decide +kernel
  have funded : Funded (run Blob.libubox watchRun State.init) := by
    unfold Funded
    decide +kernel
  obtain ⟨flags, -, moves⟩ := subscriptions_told sound
  have known : (run Blob.libubox watchRun State.init).reg.HasClient 3 := by decide +kernel
  have gone : ∀ node ∈ (handleClientDisconnect Blob.libubox 3
      (run Blob.libubox watchRun State.init)).reg.objects, 7 ∉ ((handleClientDisconnect Blob.libubox 3
        (run Blob.libubox watchRun State.init)).reg.object node.2).subscribers := by decide +kernel
  obtain ⟨ended, -, iff, sent⟩ := moves _ ⟨.disconnect known, funded⟩
  refine ⟨_, rfl, by decide +kernel, by decide +kernel, id ▸ flags 4 3 (by decide +kernel)
    (by decide +kernel), ended, (iff 7).mpr ⟨⟨4, by decide +kernel, by decide +kernel⟩, ?_, ?_⟩, sent⟩
  · rintro ⟨obj, has, member⟩
    obtain ⟨node, inside, rfl⟩ := List.mem_map.mp has
    exact gone node inside member
  · decide +kernel

end Sound

end Ubus
