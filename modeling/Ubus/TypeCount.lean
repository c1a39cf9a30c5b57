/-
**Object types are counted exactly.**

* `Registry.TypesCounted`: the reference count of a type is the number of its objects, and there is at
  least one.
* `hasType_freeObject`: a type stays when an object goes, unless its count was one.
-/

import Ubus.Atomic
import Ubus.Deeds

namespace Ubus

open Lib

/-- **The types are counted exactly.** -/
structure Registry.TypesCounted (reg : Registry) : Prop where
  counted : ∀ type, reg.objTypes.Has type →
    (reg.objType type).refcount = typeUses reg.objects reg.object type
  used : ∀ type, reg.objTypes.Has type → 1 ≤ typeUses reg.objects reg.object type
  known : ∀ obj type, reg.HasObject obj → (reg.object obj).type = some type → reg.objTypes.Has type

/-- The type of an object, when it is there before and not after. -/
def goneType (reg reg' : Registry) (obj : Nat) : List Put :=
  match (reg.object obj).type with
  | none => []
  | some type => if reg'.objTypes.Has type then [] else [.int32 .objtype (reg.objType type).id]

/-! ### Removal of one object -/

section Free

variable {reg : Registry} {obj type : Nat}

theorem Registry.Ok.typesCounted (good : reg.Ok) : reg.TypesCounted where
  counted type has := by
    rw [good.types.refcount type has, if_neg nofun, Nat.add_zero]
  used type has := by
    have positive := good.types.positive type has
    rwa [good.types.refcount type has, if_neg nofun, Nat.add_zero] at positive
  known := good.types.known

/-- The types, their records and the types of the objects are the same. -/
structure SameTypes (reg reg' : Registry) : Prop where
  objTypes : reg'.objTypes = reg.objTypes
  objType : reg'.objType = reg.objType
  type : ∀ obj, (reg'.object obj).type = (reg.object obj).type

theorem SameTypes.trans {reg' reg'' : Registry} (one : SameTypes reg reg')
    (two : SameTypes reg' reg'') : SameTypes reg reg'' :=
  ⟨two.objTypes.trans one.objTypes, two.objType.trans one.objType,
    fun obj => (two.type obj).trans (one.type obj)⟩

theorem sameTypes_unlinkAll (subs : List Nat) (reg : Registry) :
    SameTypes reg (reg.unlinkAll subs) := by
  induction subs generalizing reg with
  | nil => exact ⟨rfl, rfl, fun _ => rfl⟩
  | cons sub rest ih =>
    have one : SameTypes reg (unlinkSubscription sub reg) := by
      refine ⟨rfl, rfl, fun other => ?_⟩
      simp only [unlinkSubscription, Registry.mapObject]
      rw [update_keeps Object.type _ (by rfl), update_keeps Object.type _ (by rfl)]
    exact one.trans (ih (unlinkSubscription sub reg))

theorem sameTypes_eventCleanup (obj : Nat) (reg : Registry) :
    SameTypes reg (ubusdEventCleanupObject obj reg) := by
  have records : (ubusdEventCleanupObject obj reg).objTypes = reg.objTypes ∧
      (ubusdEventCleanupObject obj reg).objType = reg.objType := by
    unfold ubusdEventCleanupObject
    generalize (reg.object obj).events = list
    induction list generalizing reg with
    | nil => exact ⟨rfl, rfl⟩
    | cons ev rest ih => exact ih (ubusdDeleteEventSource reg ev)
  refine ⟨records.1, records.2, fun other => ?_⟩
  obtain ⟨_, object⟩ := eventCleanup_object reg obj other
  rw [object]

theorem sameTypes_unlinkObject (obj : Nat) (reg : Registry) :
    SameTypes reg (unlinkObject obj (removePath obj reg)) := by
  unfold unlinkObject removePath
  split <;> split <;> exact ⟨rfl, rfl, fun _ => rfl⟩

theorem unref_objTypes (type : Nat) (reg : Registry) : (ubusUnrefObjectType type reg).objTypes =
    if 0 < (reg.objType type).refcount - 1 then reg.objTypes else reg.objTypes.delete type := by
  simp only [ubusUnrefObjectType, Registry.mapObjType, Function.update_self]
  split <;> rfl

theorem freeObject_objTypes (obj : Nat) (reg : Registry) : (reg.freeObject obj).objTypes =
    (unrefType (reg.object obj).type reg).objTypes := by
  unfold Registry.freeObject dropObject
  simp only
  have before := (sameTypes_unlinkAll (reg.object obj).targetList reg).trans
    (sameTypes_unlinkAll ((reg.unlinkAll (reg.object obj).targetList).object obj).subscribers _)
  have same := (before.trans (sameTypes_eventCleanup obj _)).trans (sameTypes_unlinkObject obj _)
  generalize unlinkObject obj (removePath obj _) = last at same ⊢
  rw [same.type]
  unfold unrefType
  split
  · exact same.objTypes
  · simp only [unref_objTypes, same.objType, same.objTypes]

/-- **A type stays, unless the object was its last.** -/
theorem hasType_freeObject (good : reg.Ok) (has : reg.HasObject obj)
    (typed : (reg.object obj).type = some type) :
    (reg.freeObject obj).objTypes.Has type ↔ (reg.objType type).refcount ≠ 1 := by
  have known := good.types.known obj type has typed
  have positive := good.types.positive type known
  rw [freeObject_objTypes, typed, unrefType, unref_objTypes]
  split
  · rename_i stays
    exact ⟨fun _ => by omega, fun _ => known⟩
  · rename_i goes
    exact ⟨fun stays => absurd rfl (AvlTree.has_delete.mp stays).2, fun other => by omega⟩

theorem removedType_eq (good : reg.Ok) (has : reg.HasObject obj) :
    Bus.removedType reg obj = goneType reg (reg.freeObject obj) obj := by
  rcases typed : (reg.object obj).type with _ | type
  · simp only [Bus.removedType, goneType, typed]
  have stays := hasType_freeObject good has typed
  simp only [Bus.removedType, goneType, typed]
  by_cases last : (reg.objType type).refcount = 1
  · rw [if_pos last, if_neg fun has => stays.mp has last]
  · rw [if_neg last, if_pos (stays.mpr last)]

end Free

/-! ### The answer to a removal -/

section Answer

variable {lib : Libubox} {cl ub obj : Nat} {s : State}

/-- The message asks for the removal of an object of the client. -/
structure Removes (lib : Libubox) (cl ub obj : Nat) (s : State) : Prop where
  typed : (s.buf ub).hdr.type = MsgType.removeObject.code
  named : ∃ objid, ubusParseMsg lib (s.buf ub).data .objid = some objid ∧
    ubusdFindObject s.reg (lib.blobGetU32 objid) = some obj
  mine : (s.reg.object obj).client = some cl

/-- The answer to a removal, with what it says about the type. -/
def removalAnswer (s : State) (cl ub obj : Nat) (named : List Put) : Letter :=
  ⟨s.cause, cl, { type := MsgType.data.code, seq := (s.buf ub).hdr.seq, peer := (s.buf ub).hdr.peer },
    .built (.int32 .objid (s.reg.object obj).id :: named)⟩

theorem Bus.answer_removeObject {b : Bus} {hdr : Msghdr} {data : Payload} {objid : Bytes}
    (typed : hdr.type = MsgType.removeObject.code)
    (named : ubusParseMsg lib data .objid = some objid)
    (found : ubusdFindObject b.reg (lib.blobGetU32 objid) = some obj)
    (mine : (b.reg.object obj).client = some cl) :
    b.answer lib cl hdr data = ((b.reply (some cl) hdr .data (.int32 .objid (b.reg.object obj).id ::
      removedType b.reg obj)).freeObject lib obj).status cl hdr .ok := by
  have kind : MsgType.ofCode? hdr.type = some .removeObject := by
    rw [typed]
    rfl
  simp only [Bus.answer, Bus.handle, kind, Bus.handleRemoveObject, named, found, mine, ne_eq,
    not_true_eq_false, if_false, Bus.finish]

/-- **Types are counted exactly**, and the answer to a removal names the type of the object exactly
when no object is left that uses it. -/
theorem types_counted (lib : Libubox) : (∀ s, Reachable lib s → s.reg.TypesCounted) ∧
    ∀ s cl ub obj, Handles lib cl ub s → Removes lib cl ub obj s → Funded s →
      ∃ rest, letters (ubusdProtoReceiveMessage lib cl ub s).trace = letters s.trace ++
          removalAnswer s cl ub obj
            (goneType s.reg (ubusdProtoReceiveMessage lib cl ub s).reg obj) :: rest ∧
        ∀ letter ∈ rest, letter.hdr.type ≠ MsgType.data.code := by
  refine ⟨fun s reachable => reachable.inv.good.typesCounted, ?_⟩
  intro s cl ub obj handles removes funded
  obtain ⟨objid, named, found⟩ := removes.named
  have ctx := handles.processing
  have good : s.reg.Ok := ctx.inv.good
  have has : s.reg.HasObject obj := has_of_found found
  have final := shows_receiveMessage lib (⟨rfl, funded⟩ : Shows s s.bus) ctx (by
    rw [removes.typed]
    decide)
  have answered : s.bus.answer lib cl _ _ = _ :=
    Bus.answer_removeObject removes.typed named found removes.mine
  rw [answered] at final
  have gone : (ubusdProtoReceiveMessage lib cl ub s).reg = s.reg.freeObject obj := by
    rw [final.reg]
    exact (Bus.submitTo_reg ..).trans ((Bus.freeObject_reg lib _ obj).trans rfl)
  generalize started : s.bus.reply (some cl) _ .data _ = b at final
  obtain ⟨new, out, notices⟩ := (Bus.adds_freeObject b obj : Bus.Adds Letter.Notice b
    (b.freeObject lib obj)).out
  refine ⟨new ++ [Bus.statusLetter (b.freeObject lib obj).cause cl (s.net.buf ub).hdr .ok], ?_, ?_⟩
  · have answer : b.out = letters s.trace ++ [removalAnswer s cl ub obj
        (goneType s.reg (s.reg.freeObject obj) obj)] := by
      rw [← started, ← removedType_eq good has]
      rfl
    have last : letters (ubusdProtoReceiveMessage lib cl ub s).trace = (b.freeObject lib obj).out ++
      [Bus.statusLetter (b.freeObject lib obj).cause cl (s.net.buf ub).hdr .ok] :=
        congrArg Bus.out final.bus
    rw [last, out, answer, gone]
    simp only [List.append_assoc, List.cons_append, List.nil_append]
  · intro letter member
    rcases List.mem_append.mp member with member | member
    · rcases (notices letter member).2 with typed | typed | typed <;> rw [typed] <;> decide
    · rw [List.mem_singleton.mp member]
      exact (by decide : MsgType.status.code ≠ MsgType.data.code)

/-- A client adds an object of a new type and asks for its removal; the request is not read yet. -/
def removalRun : List Input :=
  [connects rootCred 5000,
    receives 3 (Blob.message .addObject 1 0
      [.string .objpath (cstr "foo"), .nest .signature []]) false,
    { action := .client 3 false false (Blob.message .removeObject 2 0 [.int32 .objid 4002]) []
        [.got 11 false, .again] }]

theorem types_counted_remove : ∃ s, s.reg.TypesCounted ∧ Handles Blob.libubox 3 4 s ∧
    Removes Blob.libubox 3 4 5 s ∧ Funded s ∧
    goneType s.reg (ubusdProtoReceiveMessage Blob.libubox 3 4 s).reg 5 = [.int32 .objtype 4001] ∧
    ∃ rest, letters (ubusdProtoReceiveMessage Blob.libubox 3 4 s).trace = letters s.trace ++
      removalAnswer s 3 4 5 [.int32 .objtype 4001] :: rest := by
  have reachable := reachable_run Blob.libubox removalRun
  obtain ⟨t, start⟩ : ∃ t, run Blob.libubox removalRun State.init = t := ⟨_, rfl⟩
  rw [start] at reachable
  have counted := (types_counted Blob.libubox).1 t reachable
  have handles : Handles Blob.libubox 3 4 _ := .read 8 reachable
    (by rw [← start]; decide +kernel) (by rw [← start]; decide +kernel)
    (by rw [← start]; decide +kernel)
  obtain ⟨s, here⟩ : ∃ s, ubusdMonitorMessage Blob.libubox 3 4 false
    (takeMessage 3 4 (gotBody Blob.libubox 3 4 8 t)) = s := ⟨_, rfl⟩
  rw [here] at handles
  have same : s.reg = t.reg := by
    rw [← here]
    exact (mails_monitorMessage Blob.libubox 3 4 false _).reg
  have removes : Removes Blob.libubox 3 4 5 s := by
    rw [← here, ← start]
    exact ⟨by decide +kernel, ⟨[3, 0, 0, 8, 0, 0, 15, 162], by decide +kernel, by decide +kernel⟩,
      by decide +kernel⟩
  have funded : Funded s := by
    rw [← here, ← start]
    unfold Funded
    decide +kernel
  have gone : goneType s.reg (ubusdProtoReceiveMessage Blob.libubox 3 4 s).reg 5 =
      [.int32 .objtype 4001] := by
    have typed : (s.reg.object 5).type = some 4 := by
      rw [same, ← start]
      decide +kernel
    have id : (s.reg.objType 4).id = 4001 := by
      rw [same, ← start]
      decide +kernel
    have absent : ¬ (ubusdProtoReceiveMessage Blob.libubox 3 4 s).reg.objTypes.Has 4 := by
      rw [← here, ← start]
      decide +kernel
    simp only [goneType, typed, id, if_neg absent]
  obtain ⟨rest, answered, -⟩ := (types_counted Blob.libubox).2 s 3 4 5 handles removes funded
  rw [gone] at answered
  exact ⟨s, same ▸ counted, handles, removes, funded, gone, rest, answered⟩

end Answer

end Ubus
