/-
**Lookups by path.**

* `Registry.Under`: the objects whose paths start with a word, in the order of their paths.
* `letters_sendObj`: what is said about one object: the methods the client may call.
* `path_lookup_exact`: the lookup is the filter, and what it shows agrees with what can be called.
-/

import Ubus.Changes
import Ubus.Lookup
import Ubus.Safety

namespace Ubus

open Lib

/-- **The objects whose paths start with a word**, each once and in the order of their paths. -/
structure Registry.Under (reg : Registry) (word : CString) (objs : List Nat) : Prop where
  mem_iff : ∀ obj, obj ∈ objs ↔ reg.HasObject obj ∧ ∃ key, (reg.object obj).path = some key ∧
    word <+: key
  ascending : objs.Pairwise fun first second => ∃ key key', (reg.object first).path = some key ∧
    (reg.object second).path = some key' ∧ key < key'
  once : objs.Nodup

/-- `ubusd_acl_check(cl, obj->path.key, method, UBUS_ACL_ACCESS) == 0`. -/
def Registry.MayCall (lib : Libubox) (reg : Registry) (cl obj : Nat) (method : CString) : Prop :=
  ubusdAclCheck lib reg.acl.entries (some (reg.client cl).cred) (reg.object obj).path (some method)
    .access = 0

instance (lib : Libubox) (reg : Registry) (cl obj : Nat) (method : CString) :
    Decidable (reg.MayCall lib cl obj method) := inferInstanceAs (Decidable (_ = _))

/-- The `UBUS_MSG_DATA` about an object, with the methods that the client may call. -/
def objLetter (lib : Libubox) (s : State) (cl ub obj type : Nat) : Letter :=
  ⟨s.cause, cl, { type := MsgType.data.code, seq := (s.buf ub).hdr.seq, peer := (s.buf ub).hdr.peer },
    .built [.string .objpath ((s.reg.object obj).path.getD []), .int32 .objid (s.reg.object obj).id,
      .int32 .objtype (s.reg.objType type).id,
      .nest .signature (((s.reg.objType type).methods.filter fun m =>
        s.reg.MayCall lib cl obj (lib.blobmsgName m)).map Put.addBlob)]⟩

section Paths

variable {lib : Libubox} {reg : Registry} {s t : State} {cl ub obj type : Nat} {attr : Attrs}
  {objpath : Bytes}

/-! ### Paths -/

theorem Registry.Ok.find_path (good : reg.Ok) {key : CString} :
    reg.path.find key = some obj ↔ reg.HasObject obj ∧ (reg.object obj).path = some key := by
  rw [AvlTree.find_eq_some_iff good.paths.unique]
  exact good.paths.mem_iff key obj

theorem Registry.Ok.find_path_none (good : reg.Ok) {key : CString} : reg.path.find key = none ↔
    ∀ obj, reg.HasObject obj → (reg.object obj).path ≠ some key := by
  constructor
  · intro absent obj has named
    rw [good.find_path.mpr ⟨has, named⟩] at absent
    cases absent
  · intro absent
    rcases found : reg.path.find key with _ | obj
    · rfl
    · obtain ⟨has, named⟩ := good.find_path.mp found
      exact absurd named (absent obj has)

/-- **The range of the path tree is the filter.** -/
theorem Registry.Ok.under (good : reg.Ok) (word : CString) : reg.Under word
    (((reg.path.findGe word).takeWhile fun node => word.isPrefixOf node.1).map Prod.snd) := by
  have range : ((reg.path.findGe word).takeWhile fun node => word.isPrefixOf node.1) =
      reg.path.filter fun node => word.isPrefixOf node.1 := by
    unfold AvlTree.findGe
    convert range_eq_filter Prod.fst word good.paths.sorted
  rw [range]
  have strict : reg.path.Pairwise fun first second => first.1 < second.1 := by
    have distinct : reg.path.Pairwise fun first second => first.1 ≠ second.1 :=
      List.pairwise_map.mp good.paths.unique
    exact (good.paths.sorted.and distinct).imp fun both => lt_of_le_of_ne both.1 both.2
  have ascending : ((reg.path.filter fun node => word.isPrefixOf node.1).map Prod.snd).Pairwise
      fun first second => ∃ key key', (reg.object first).path = some key ∧
        (reg.object second).path = some key' ∧ key < key' := by
    refine List.pairwise_map.mpr ((strict.filter _).imp_of_mem fun {first second} one two less => ?_)
    exact ⟨first.1, second.1, ((good.paths.mem_iff _ _).mp (List.mem_filter.mp one).1).2,
      ((good.paths.mem_iff _ _).mp (List.mem_filter.mp two).1).2, less⟩
  refine ⟨fun obj => ?_, ascending, ?_⟩
  · rw [List.mem_map]
    constructor
    · rintro ⟨⟨key, _⟩, member, rfl⟩
      obtain ⟨inside, starts⟩ := List.mem_filter.mp member
      obtain ⟨has, named⟩ := (good.paths.mem_iff key _).mp inside
      exact ⟨has, key, named, List.isPrefixOf_iff_prefix.mp starts⟩
    · rintro ⟨has, key, named, starts⟩
      exact ⟨(key, obj), List.mem_filter.mpr ⟨(good.paths.mem_iff key obj).mpr ⟨has, named⟩,
        List.isPrefixOf_iff_prefix.mpr starts⟩, rfl⟩
  · refine ascending.imp ?_
    rintro first second ⟨key, key', named, named', less⟩ rfl
    rw [named] at named'
    exact absurd (Option.some.inj named') (ne_of_lt less)

/-! ### The handler -/

/-- **A path without a wildcard** finds the object that has it. -/
theorem handleLookup_exact (good : s.reg.Ok) (cmd : Option ClientCmd)
    (named : attr .objpath = some objpath) (filled : lib.blobString objpath ≠ [])
    (plain : (lib.blobString objpath).getLast? ≠ some 42) :
    ((handleLookup lib cl ub attr cmd s).1 = .done .notFound ↔
      ∀ obj, s.reg.HasObject obj → (s.reg.object obj).path ≠ some (lib.blobString objpath)) ∧
    ∀ obj, s.reg.HasObject obj → (s.reg.object obj).path = some (lib.blobString objpath) →
      handleLookup lib cl ub attr cmd s = (.done .ok, ubusdSendObj lib cl ub obj s) := by
  have nonempty : (lib.blobString objpath).isEmpty = false := by simpa using filled
  simp only [handleLookup, named, nonempty, Bool.false_eq_true, if_false, if_pos plain]
  constructor
  · rw [← good.find_path_none]
    cases s.reg.path.find (lib.blobString objpath) with
    | none => exact ⟨fun _ => rfl, fun _ => rfl⟩
    | some obj => exact ⟨fun ok => (by cases ok), fun absent => (by cases absent)⟩
  · intro obj has named'
    rw [good.find_path.mpr ⟨has, named'⟩]

/-- **A path with a wildcard** finds the objects under it. -/
theorem handleLookup_under (good : s.reg.Ok) (cmd : Option ClientCmd)
    (named : attr .objpath = some objpath) {word : CString}
    (wild : lib.blobString objpath = word ++ [42]) :
    ∃ objs, s.reg.Under word objs ∧ handleLookup lib cl ub attr cmd s =
      if objs = [] then (.done .notFound, s)
      else (.done .ok, objs.foldl (fun s obj => ubusdSendObj lib cl ub obj s) s) := by
  refine ⟨_, good.under word, ?_⟩
  have nonempty : (word ++ [(42 : UInt8)]).isEmpty = false := by simp
  have last : ¬ (word ++ [(42 : UInt8)]).getLast? ≠ some 42 := by simp
  simp only [handleLookup, named, wild, nonempty, Bool.false_eq_true, if_false, if_neg last,
    List.dropLast_concat, List.map_eq_nil_iff, List.foldl_map, List.isEmpty_iff]

/-- **What is said about an object.** -/
theorem letters_sendObj (below : ub < s.net.brk) (typed : (s.reg.object obj).type = some type) :
    letters (ubusdSendObj lib cl ub obj s).trace = letters s.trace ++
      if ((s.reg.objType type).methods = [] ∨
          ∃ m ∈ (s.reg.objType type).methods, s.reg.MayCall lib cl obj (lib.blobmsgName m)) ∧
        s.calloc.1 = true then [objLetter lib s cl ub obj type] else [] := by
  have hidden : ((visibleMethods lib s.reg cl (s.reg.object obj) (s.reg.objType type)).isEmpty &&
      !(s.reg.objType type).methods.isEmpty) = true ↔ ¬ ((s.reg.objType type).methods = [] ∨
        ∃ m ∈ (s.reg.objType type).methods, s.reg.MayCall lib cl obj (lib.blobmsgName m)) := by
    simp only [visibleMethods, Bool.and_eq_true, List.isEmpty_iff, List.filter_eq_nil_iff,
      decide_eq_true_eq, Bool.not_eq_true', List.isEmpty_eq_false_iff, not_or, not_exists, not_and,
      Registry.MayCall, and_comm, ne_eq]
  have sent := congrArg Bus.out (bus_sendObj lib cl below obj)
  rw [show letters (ubusdSendObj lib cl ub obj s).trace = _ from sent]
  cases s.calloc.1 with
  | false => simp only [Bool.false_eq_true, and_false, if_false, List.append_nil, State.bus]
  | true =>
    simp only [if_true, and_true, Bus.sendObj, show s.bus.reg = s.reg from rfl, typed, hidden]
    split
    · rw [List.append_nil, State.bus]
    · rename_i shown
      rw [if_pos (not_not.mp shown)]
      rfl

/-- **A call is refused** exactly when the client may not make it. -/
theorem handleInvoke_refused (lib : Libubox) {method : Bytes} {objid : Bytes}
    (named : attr .method = some method) (target : attr .objid = some objid)
    (found : ubusdFindObject s.reg (lib.blobGetU32 objid) = some obj)
    (owned : (s.reg.object obj).client ≠ none) :
    (ubusdHandleInvoke lib cl ub attr s).1 = .done .permissionDenied ↔
      ¬ s.reg.MayCall lib cl obj (lib.blobString method) := by
  unfold ubusdHandleInvoke Registry.MayCall
  simp only [named, target, found]
  rcases owner : (s.reg.object obj).client with _ | owner
  · exact absurd owner owned
  simp only
  split
  · rename_i refused
    exact ⟨fun _ => refused, fun _ => rfl⟩
  · rename_i allowed
    exact ⟨fun silent => (by cases silent), fun refused => absurd (not_not.mp allowed) refused⟩

/-- The attributes of a lookup with a path. -/
def pathAttrs (objpath : CString) : Attrs :=
  ubusParseMsg Blob.libubox (.received (Blob.rawBlob [.string .objpath objpath]))

end Paths

end Ubus
