/-
**Access lists: matching a name, a client and a permission** (`ubusd_acl.c`, `ubus_common.h`).

* `ubusdAclCheck` — the walk over `ubusd_acls`. `0` means granted, `-1` denied, as in the source.
* `ubusdReplyAdd` — the walk that answers an ACL query.
-/

import Ubus.Lib.PatternWalk
import Ubus.Msg

namespace Ubus

open Lib

/-- The credentials of a client: the fields `ubusd_acl_init_client` fills in. -/
structure Cred where
  uid : Int
  gid : Int
  extraGid : List Int
  user : Option CString
  group : Option CString
deriving DecidableEq, Repr, Inhabited

/-- `struct ubusd_acl_obj`. A `uid` or `gid` of `-1` is not set. -/
structure AclObj where
  key : CString
  isPartial : Bool
  user : Option CString
  group : Option CString
  uid : Int
  gid : Int
  methods : Option Bytes := none
  tags : Option Bytes := none
  priv : Option Bytes := none
  subscribe : Bool := false
  publish : Bool := false
  listen : Bool := false
  send : Bool := false
deriving DecidableEq, Repr

/-- `enum ubusd_acl_type`. -/
inductive AclType where
  | publish | subscribe | access | listen | send
deriving DecidableEq, Repr

/-! ### Matching names -/

/-- `ubus_strmatch_len`: whether the strings are equal, and the length of their common start. -/
def ubusStrmatchLen : CString → CString → Bool × Nat
  | [], [] => (true, 0)
  | a :: first, b :: second =>
    if a = b then
      let (full, len) := ubusStrmatchLen first second
      (full, len + 1)
    else (false, 0)
  | _, _ => (false, 0)

theorem ubusStrmatchLen_eq (first second : CString) :
    ubusStrmatchLen first second = (decide (first = second), commonLen first second) := by
  induction first generalizing second with
  | nil => cases second <;> simp [ubusStrmatchLen, commonLen]
  | cons a first ih =>
    cases second with
    | nil => simp [ubusStrmatchLen, commonLen]
    | cons b second =>
      by_cases same : a = b
      · simp [ubusStrmatchLen, commonLen, same, ih]
      · simp [ubusStrmatchLen, commonLen, same]

/-- The entries are in `strcmp` order. -/
def AclSorted (acls : List AclObj) : Prop :=
  acls.Pairwise fun first second => first.key ≤ second.key

/-- The loop shared by `ubusd_acl_check` and `ubusd_reply_add`. -/
def aclWalk {σ : Type} (skip : AclObj → Bool) (subject : CString)
    (body : AclObj → σ → σ × Bool) (acls : List AclObj) (acc : σ) : σ :=
  prunedWalk ubusStrmatchLen AclObj.key AclObj.isPartial skip subject body 0 acls acc

/-- An entry covers a name. -/
def AclObj.CoversName (acl : AclObj) (name : CString) : Prop :=
  Covers acl.key acl.isPartial name

instance (acl : AclObj) (name : CString) : Decidable (acl.CoversName name) :=
  inferInstanceAs (Decidable (Covers _ _ _))

/-! ### Checking a permission -/

/-- `ubusd_acl_match_cred`, true where the source returns `0`. -/
def ubusdAclMatchCred (cl : Cred) (obj : AclObj) : Bool :=
  (obj.uid != -1 && cl.uid == obj.uid) ||
    (obj.gid != -1 && (cl.gid == obj.gid || cl.extraGid.any fun gid => gid == obj.gid))

variable (lib : Libubox)

/-- The `methods` array of an entry holds the method or `"*"`. -/
def AclObj.listsMethod (acl : AclObj) (method : Option CString) : Bool :=
  match acl.methods with
  | none => false
  | some methods => (lib.blobmsgForEachAttr methods).any fun cur =>
      lib.blobmsgType cur == .string &&
        (method == some (lib.blobmsgString cur) || cstr "*" == lib.blobmsgString cur)

/-- The `switch` of `ubusd_acl_check`: the entry grants the permission. -/
def AclObj.grants (acl : AclObj) (method : Option CString) : AclType → Bool
  | .publish => acl.publish
  | .subscribe => acl.subscribe
  | .listen => acl.listen
  | .send => acl.send
  | .access => acl.listsMethod lib method

/-- `ubusd_acl_check`. -/
def ubusdAclCheck (acls : List AclObj) (cl : Option Cred) (obj : Option CString)
    (method : Option CString) (type : AclType) : Int :=
  match cl, obj with
  | some cl, some obj =>
    if cl.uid = 0 then 0
    else aclWalk (fun _ => false) obj
      (fun acl ret =>
        if !ubusdAclMatchCred cl acl then (ret, false)
        else if acl.grants lib method type then (0, true)
        else (ret, false)) acls (-1)
  | _, _ => 0

theorem foldStop_eq_zero_iff (good : AclObj → Bool) (entries : List AclObj) :
    foldStop (fun acl (ret : Int) => if good acl then (0, true) else (ret, false)) entries (-1) = 0 ↔
      ∃ acl ∈ entries, good acl = true := by
  induction entries with
  | nil => simp [foldStop]
  | cons acl rest ih =>
    by_cases hit : good acl = true
    · simp [foldStop, hit]
    · simp [foldStop, hit, ih]

/-- **The check grants exactly what the entries say.** -/
theorem ubusdAclCheck_eq_zero_iff {acls : List AclObj} (sorted : AclSorted acls)
    (cl : Option Cred) (obj method : Option CString) (type : AclType) :
    ubusdAclCheck lib acls cl obj method type = 0 ↔
      cl = none ∨ (∃ cred, cl = some cred ∧ cred.uid = 0) ∨ obj = none ∨
        ∃ cred name, cl = some cred ∧ obj = some name ∧ ∃ acl ∈ acls, acl.CoversName name ∧
          ubusdAclMatchCred cred acl = true ∧ acl.grants lib method type = true := by
  cases cl with
  | none => simp [ubusdAclCheck]
  | some cred =>
    cases obj with
    | none => simp [ubusdAclCheck]
    | some name =>
      by_cases root : cred.uid = 0
      · simp [ubusdAclCheck, root]
      have body : (fun (acl : AclObj) (ret : Int) =>
          if !ubusdAclMatchCred cred acl then (ret, false)
          else if acl.grants lib method type then ((0 : Int), true) else (ret, false)) =
          fun acl ret => if ubusdAclMatchCred cred acl && acl.grants lib method type then
            ((0 : Int), true) else (ret, false) := by
        funext acl ret
        cases ubusdAclMatchCred cred acl <;> simp
      rw [ubusdAclCheck, if_neg root, body, aclWalk,
        prunedWalk_eq_foldStop ubusStrmatchLen_eq acls sorted, foldStop_eq_zero_iff]
      simp only [List.mem_filter, visits, Bool.not_false, Bool.true_and, decide_eq_true_eq,
        Bool.and_eq_true, reduceCtorEq, Option.some.injEq, false_or]
      constructor
      · rintro ⟨acl, ⟨member, covers⟩, cred', grants⟩
        exact Or.inr ⟨cred, name, rfl, rfl, acl, member, covers, cred', grants⟩
      · rintro (⟨other, rfl, zero⟩ | ⟨other, name', rfl, rfl, acl, member, covers, match', grants⟩)
        · exact absurd zero root
        · exact ⟨acl, ⟨member, covers⟩, match', grants⟩

/-! ### Answering a query -/

/-- The table `ubusd_reply_add` emits for one entry. -/
def replyEntry (path : CString) (acl : AclObj) (priv : Bytes) : Put :=
  .msgTable none ([.msgString (cstr "obj") path] ++
    (acl.user.map (Put.msgString (cstr "user"))).toList ++
    (acl.group.map (Put.msgString (cstr "group"))).toList ++
    [.msgField (cstr "acl") priv])

/-- `ubusd_reply_add`: the tables appended to the blob for an object with this path. -/
def ubusdReplyAdd (acls : List AclObj) (path : Option CString) : List Put :=
  match path with
  | none => []
  | some path => aclWalk (fun acl => acl.priv.isNone) path
      (fun acl puts => (puts ++ (acl.priv.map (replyEntry path acl)).toList, false)) acls []

/-- **A query lists exactly the entries with a private table that cover the path**, in order. -/
theorem ubusdReplyAdd_eq {acls : List AclObj} (sorted : AclSorted acls) (path : CString) :
    ubusdReplyAdd acls (some path) =
      (acls.filter fun acl => acl.priv.isSome && decide (acl.CoversName path)).flatMap
        fun acl => (acl.priv.map (replyEntry path acl)).toList := by
  have fold : ∀ (entries : List AclObj) (start : List Put),
      entries.foldl (fun puts acl => puts ++ (acl.priv.map (replyEntry path acl)).toList) start =
        start ++ entries.flatMap fun acl => (acl.priv.map (replyEntry path acl)).toList := by
    intro entries
    induction entries with
    | nil => simp
    | cons acl rest ih =>
      intro start
      rw [List.foldl_cons, ih, List.flatMap_cons, List.append_assoc]
  rw [ubusdReplyAdd, aclWalk, prunedWalk_eq_foldStop ubusStrmatchLen_eq acls sorted,
    foldStop_eq_foldl (fun _ => True) _ (fun _ _ _ => ⟨rfl, trivial⟩) trivial, fold, List.nil_append]
  congr 1
  refine List.filter_congr fun acl _ => ?_
  rw [visits, Option.not_isNone]
  rfl

end Ubus
