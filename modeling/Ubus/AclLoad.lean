/-
**Loading the access lists** (`ubusd_acl.c`).

`ubusd_acl_load` globs the ACL directory, reads every regular, root-owned, correctly-permissioned
`*.json` file into a list of entries, and lets the version stamps of a `vlist` drop the files that
were not read again. The state is the `vlist` of files, each with the entries it contributed, and
the tree `ubusd_acls` of all entries in `strcmp` order.

* `describes host dir` — the entries the directory describes, without any state.
* `entries_ubusdAclLoad`: when `glob` succeeds, the tree afterwards is what the directory describes,
  whatever was loaded before.
-/

import Mathlib.Data.List.Perm.Basic
import Mathlib.Data.List.Nodup
import Ubus.Lib.Tree
import Ubus.Acl
import Ubus.Blob

namespace Ubus

open Lib

variable {st : AclState} {owner first second file : AclFile} {new : List AclObj} {host : Host}
  {after : AclFile × AclState} {current : Nat}

/-! ### The host and the directory -/

/-- The user and group databases, as `getpwnam` and `getgrnam` answer now. -/
structure Host where
  getpwnam : CString → Option Int
  getgrnam : CString → Option Int

/-- A path of the glob result, with what `stat` and the JSON reader say about it. -/
structure DirFile where
  name : CString
  isReg : Bool
  uid : Nat
  gid : Nat
  mode : Nat
  /-- The blob `blobmsg_add_json_from_file` produces, or nothing when the file does not parse. -/
  blob : Option Bytes
deriving DecidableEq, Repr

/-- The `*.json` paths of the ACL directory. -/
structure Directory where
  files : List DirFile
  nodup : (files.map DirFile.name).Nodup

/-- `glob`: a non-zero return (`none`) when nothing matches or on an error. -/
def glob (dir : Directory) (fault : Bool) : Option (List DirFile) :=
  if fault || dir.files.isEmpty then none else some dir.files

/-- `st_mode & (S_IWOTH | S_IWGRP | S_IXOTH)` is clear. -/
def DirFile.modeOk (file : DirFile) : Bool := file.mode &&& 19 == 0

/-- The file passes the checks of the loop in `ubusd_acl_load`. -/
def DirFile.usable (file : DirFile) : Bool :=
  file.isReg && (file.uid == 0 && file.gid == 0) && file.modeOk

/-! ### The state -/

/-- `struct ubusd_acl_file`: a node of the `vlist` and the entries it contributed. -/
structure AclFile where
  name : CString
  version : Nat
  blob : Bytes
  user : Option CString := none
  group : Option CString := none
  uid : Int := 0
  gid : Int := 0
  acl : List (Nat × AclObj) := []
deriving DecidableEq

/-- `ubusd_acl_files`, `ubusd_acls` and `ubusd_acl_seq`; entries carry their address. -/
structure AclState where
  files : List AclFile := []
  version : Nat := 1
  acls : List (Nat × AclObj) := []
  seq : UInt32 := 0
  brk : Nat := 1

/-- The entries of the tree, in iteration order. -/
def AclState.entries (st : AclState) : List AclObj := st.acls.map Prod.snd

/-- `ubusd_acl_file_free`. -/
def ubusdAclFileFree (file : AclFile) (st : AclState) : AclState :=
  { st with acls := st.acls.filter fun entry => entry ∉ file.acl }

/-- The entry `ubusd_acl_alloc_obj` makes of a name, before its caller fills it in. -/
def newAclObj (file : AclFile) (obj : CString) : AclObj :=
  let isPartial := obj.getLast? == some 42
  { key := if isPartial then obj.dropLast else obj
    isPartial, user := file.user, group := file.group, uid := file.uid, gid := file.gid }

/-- `ubusd_acl_alloc_obj`, with what its caller stores in the new entry. -/
def ubusdAclAllocObj (obj : CString) (fill : AclObj → AclObj) :
    AclFile × AclState → AclFile × AclState
  | (file, st) =>
    if obj.isEmpty then (file, st)
    else
      let entry := (st.brk, fill (newAclObj file obj))
      ({ file with acl := entry :: file.acl },
        { st with acls := insertBy (fun entry => entry.2.key) entry st.acls, brk := st.brk + 1 })

def aclObjPolicy : List (CString × BlobmsgType) :=
  [(cstr "methods", .array), (cstr "tags", .array), (cstr "acl", .table)]

def aclPolicy : List (CString × BlobmsgType) :=
  [(cstr "user", .string), (cstr "group", .string), (cstr "access", .table),
    (cstr "publish", .array), (cstr "subscribe", .array), (cstr "inherit", .array),
    (cstr "listen", .array), (cstr "send", .array)]

variable (lib : Libubox)

/-- `ubusd_acl_add_access`. -/
def ubusdAclAddAccess (obj : Bytes) (acc : AclFile × AclState) : AclFile × AclState :=
  let tb := lib.blobmsgParse aclObjPolicy (lib.blobmsgData obj)
  if (tb (cstr "methods")).isNone && (tb (cstr "tags")).isNone && (tb (cstr "acl")).isNone then acc
  else ubusdAclAllocObj (lib.blobmsgName obj) (fun entry => { entry with
    methods := tb (cstr "methods"), tags := tb (cstr "tags"), priv := tb (cstr "acl") }) acc

def ubusdAclAddSubscribe (obj : CString) : AclFile × AclState → AclFile × AclState :=
  ubusdAclAllocObj obj fun entry => { entry with subscribe := true }

def ubusdAclAddPublish (obj : CString) : AclFile × AclState → AclFile × AclState :=
  ubusdAclAllocObj obj fun entry => { entry with publish := true }

def ubusdAclAddListen (obj : CString) : AclFile × AclState → AclFile × AclState :=
  ubusdAclAllocObj obj fun entry => { entry with listen := true }

def ubusdAclAddSend (obj : CString) : AclFile × AclState → AclFile × AclState :=
  ubusdAclAllocObj obj fun entry => { entry with send := true }

/-- The loops over the string arrays of a file. -/
def aclStrings (attr : Option Bytes) (add : CString → AclFile × AclState → AclFile × AclState)
    (acc : AclFile × AclState) : AclFile × AclState :=
  match attr with
  | none => acc
  | some attr => (lib.blobmsgForEachAttr attr).foldl (fun acc cur =>
      if lib.blobmsgType cur == .string then add (lib.blobmsgString cur) acc else acc) acc

/-- Whose permissions a file describes: `user` wins over `group`, an unknown name sets no id, and a
file with neither contributes nothing. -/
def aclFileOwner (host : Host) (file : AclFile) : Option AclFile :=
  let tb := lib.blobmsgParse aclPolicy (lib.blobData file.blob)
  match tb (cstr "user"), tb (cstr "group") with
  | some user, _ =>
    let name := lib.blobmsgString user
    some { file with user := some name, uid := (host.getpwnam name).getD (-1), gid := -1 }
  | none, some group =>
    let name := lib.blobmsgString group
    some { file with group := some name, uid := -1, gid := (host.getgrnam name).getD (-1) }
  | none, none => none

/-- `ubusd_acl_file_add`. -/
def ubusdAclFileAdd (host : Host) : AclFile × AclState → AclFile × AclState
  | (file, st) =>
    let tb := lib.blobmsgParse aclPolicy (lib.blobData file.blob)
    match aclFileOwner lib host file with
    | none => ({ file with uid := -1, gid := -1 }, st)
    | some file =>
      let acc := match tb (cstr "access") with
        | none => (file, st)
        | some access => (lib.blobmsgForEachAttr access).foldl
            (fun acc cur => ubusdAclAddAccess lib cur acc) (file, st)
      let acc := aclStrings lib (tb (cstr "subscribe")) ubusdAclAddSubscribe acc
      let acc := aclStrings lib (tb (cstr "publish")) ubusdAclAddPublish acc
      let acc := aclStrings lib (tb (cstr "listen")) ubusdAclAddListen acc
      aclStrings lib (tb (cstr "send")) ubusdAclAddSend acc

/-- A file that was read becomes a node of the `vlist`. -/
def vlistEnter : AclFile × AclState → AclState
  | (file, st) => { st with files := insertBy AclFile.name file st.files }

/-- `ubusd_acl_load_file`, with `vlist_add` and the update callback it runs: a file of the same name
is replaced, its entries go before the new ones come. -/
def ubusdAclLoadFile (host : Host) (path : DirFile) (st : AclState) : AclState :=
  match path.blob with
  | none => st
  | some blob =>
    let st := match st.files.find? fun file => file.name == path.name with
      | none => st
      | some old => ubusdAclFileFree old
          { st with files := st.files.filter fun file => file.name != path.name }
    vlistEnter (ubusdAclFileAdd lib host ({ name := path.name, version := st.version, blob }, st))

/-- `vlist_flush`: delete the files that do not carry the current version. -/
def vlistFlush (st : AclState) : AclState :=
  (st.files.filter fun file => file.version != st.version).foldl
    (fun st file => ubusdAclFileFree file { st with files := st.files.erase file }) st

/-- `ubusd_acl_load`, up to the event it sends. -/
def ubusdAclLoad (host : Host) (dir : Directory) (fault : Bool) (st : AclState) : AclState :=
  match glob dir fault with
  | none => st
  | some paths =>
    -- vlist_update
    let st := { st with version := st.version + 1 }
    let st := paths.foldl (fun st path =>
      if path.usable then ubusdAclLoadFile lib host path st else st) st
    let st := vlistFlush st
    { st with seq := st.seq + 1 }

/-! ### What a directory describes -/

/-- The entry a name of a file stands for; the empty name stands for none. -/
def nameEntry (owner : AclFile) (obj : CString) (fill : AclObj → AclObj) : List AclObj :=
  if obj.isEmpty then [] else [fill (newAclObj owner obj)]

/-- The entries of one string array. -/
def stringEntries (owner : AclFile) (attr : Option Bytes) (fill : AclObj → AclObj) : List AclObj :=
  match attr with
  | none => []
  | some attr => (lib.blobmsgForEachAttr attr).flatMap fun cur =>
      if lib.blobmsgType cur == .string then nameEntry owner (lib.blobmsgString cur) fill else []

/-- The entries of one member of the `access` table. -/
def accessEntries (owner : AclFile) (obj : Bytes) : List AclObj :=
  let tb := lib.blobmsgParse aclObjPolicy (lib.blobmsgData obj)
  if (tb (cstr "methods")).isNone && (tb (cstr "tags")).isNone && (tb (cstr "acl")).isNone then []
  else nameEntry owner (lib.blobmsgName obj) fun entry => { entry with
    methods := tb (cstr "methods"), tags := tb (cstr "tags"), priv := tb (cstr "acl") }

/-- The entries of a file with a known owner. -/
def ownerEntries (owner : AclFile) : List AclObj :=
  let tb := lib.blobmsgParse aclPolicy (lib.blobData owner.blob)
  (match tb (cstr "access") with
    | none => []
    | some access => (lib.blobmsgForEachAttr access).flatMap (accessEntries lib owner)) ++
  stringEntries lib owner (tb (cstr "subscribe")) (fun entry => { entry with subscribe := true }) ++
  stringEntries lib owner (tb (cstr "publish")) (fun entry => { entry with publish := true }) ++
  stringEntries lib owner (tb (cstr "listen")) (fun entry => { entry with listen := true }) ++
  stringEntries lib owner (tb (cstr "send")) (fun entry => { entry with send := true })

/-- The entries a parsed file describes. -/
def blobEntries (host : Host) (file : AclFile) : List AclObj :=
  match aclFileOwner lib host file with
  | none => []
  | some owner => ownerEntries lib owner

/-- The entries one path of the directory contributes. -/
def pathEntries (host : Host) (path : DirFile) : List AclObj :=
  match path.blob with
  | none => []
  | some blob =>
    if path.usable then blobEntries lib host { name := path.name, version := 0, blob } else []

/-- **What the directory describes**: the entries of its regular, root-owned,
correctly-permissioned, parseable files. -/
def describes (host : Host) (dir : Directory) : List AclObj :=
  dir.files.flatMap (pathEntries lib host)

/-! ### Adding the entries of one file -/

/-- Entries are in key order. -/
def AclState.Sorted (st : AclState) : Prop :=
  st.acls.Pairwise fun first second => first.2.key ≤ second.2.key

/-- `after` is `before` with fresh entries for `new` in the tree and in the file's list. -/
def Adds (before after : AclFile × AclState) (new : List AclObj) : Prop :=
  ∃ entries : List (Nat × AclObj), (entries.map Prod.snd).Perm new ∧
    after.1 = { before.1 with acl := entries ++ before.1.acl } ∧
    after.2.acls.Perm (entries ++ before.2.acls) ∧
    (entries.map Prod.fst).Nodup ∧
    (∀ entry ∈ entries, before.2.brk ≤ entry.1 ∧ entry.1 < after.2.brk) ∧
    before.2.brk ≤ after.2.brk ∧ after.2.files = before.2.files ∧
    after.2.version = before.2.version ∧ (before.2.Sorted → after.2.Sorted)

theorem Adds.refl (acc : AclFile × AclState) : Adds acc acc [] :=
  ⟨[], List.Perm.refl _, rfl, List.Perm.refl _, List.nodup_nil, by simp, le_rfl, rfl, rfl, id⟩

theorem Adds.trans {first middle last : AclFile × AclState} {new' : List AclObj}
    (one : Adds first middle new) (two : Adds middle last new') :
    Adds first last (new ++ new') := by
  obtain ⟨entries, same, file, tree, nodup, range, brk, files, version, sorted⟩ := one
  obtain ⟨entries', same', file', tree', nodup', range', brk', files', version', sorted'⟩ := two
  refine ⟨entries' ++ entries, ?_, ?_, ?_, ?_, ?_, brk.trans brk', files'.trans files,
    version'.trans version, fun start => sorted' (sorted start)⟩
  · rw [List.map_append]
    exact (same'.append same).trans List.perm_append_comm
  · rw [file', file, List.append_assoc]
  · refine tree'.trans ?_
    rw [List.append_assoc]
    exact tree.append_left entries'
  · rw [List.map_append, List.nodup_append]
    refine ⟨nodup', nodup, fun addr inNew other inOld equal => ?_⟩
    obtain ⟨entry', member', rfl⟩ := List.mem_map.mp inNew
    obtain ⟨entry, member, rfl⟩ := List.mem_map.mp inOld
    have low := (range' entry' member').1
    have high := (range entry member).2
    omega
  · intro entry member
    rcases List.mem_append.mp member with member | member
    · exact ⟨brk.trans (range' entry member).1, (range' entry member).2⟩
    · exact ⟨(range entry member).1, lt_of_lt_of_le (range entry member).2 brk'⟩

/-- Two files with the same owner make the same entries. -/
def SameOwner (first second : AclFile) : Prop :=
  first.user = second.user ∧ first.group = second.group ∧ first.uid = second.uid ∧
    first.gid = second.gid ∧ first.blob = second.blob

theorem newAclObj_congr (same : SameOwner first second) (obj : CString) :
    newAclObj first obj = newAclObj second obj := by
  obtain ⟨user, group, uid, gid, _⟩ := same
  unfold newAclObj
  rw [user, group, uid, gid]

theorem Adds.sameOwner {before : AclFile × AclState} (adds : Adds before after new) :
    SameOwner after.1 before.1 := by
  obtain ⟨entries, -, file, -⟩ := adds
  rw [file]
  exact ⟨rfl, rfl, rfl, rfl, rfl⟩

/-- **One entry.** -/
theorem adds_allocObj (obj : CString) (fill : AclObj → AclObj) (acc : AclFile × AclState) :
    Adds acc (ubusdAclAllocObj obj fill acc) (nameEntry acc.1 obj fill) := by
  obtain ⟨file, st⟩ := acc
  simp only [ubusdAclAllocObj, nameEntry]
  split
  · exact Adds.refl _
  refine ⟨[(st.brk, fill (newAclObj file obj))], List.Perm.refl _, rfl, insertBy_perm _ _ _,
    List.nodup_singleton _, ?_, Nat.le_succ _, rfl, rfl, fun sorted => sorted_insertBy _ sorted⟩
  intro entry member
  rw [List.mem_singleton.mp member]
  exact ⟨le_rfl, Nat.lt_succ_self _⟩

/-- **A loop of additions.** -/
theorem adds_foldl (items : List Bytes) (add : AclFile × AclState → Bytes → AclFile × AclState)
    (spec : Bytes → List AclObj)
    (each : ∀ acc item, SameOwner acc.1 owner → Adds acc (add acc item) (spec item))
    (acc : AclFile × AclState) (same : SameOwner acc.1 owner) :
    Adds acc (items.foldl add acc) (items.flatMap spec) := by
  induction items generalizing acc with
  | nil => exact Adds.refl acc
  | cons item rest ih =>
    have head := each acc item same
    have owner' : SameOwner (add acc item).1 owner := by
      obtain ⟨user, group, uid, gid, blob⟩ := head.sameOwner
      obtain ⟨user', group', uid', gid', blob'⟩ := same
      exact ⟨user.trans user', group.trans group', uid.trans uid', gid.trans gid',
        blob.trans blob'⟩
    rw [List.foldl_cons, List.flatMap_cons]
    exact head.trans (ih _ owner')

theorem adds_allocObj_of_sameOwner (obj : CString) (fill : AclObj → AclObj)
    (acc : AclFile × AclState) (same : SameOwner acc.1 owner) :
    Adds acc (ubusdAclAllocObj obj fill acc) (nameEntry owner obj fill) := by
  have adds := adds_allocObj obj fill acc
  unfold nameEntry at adds ⊢
  rwa [newAclObj_congr same] at adds

theorem adds_strings (attr : Option Bytes) (fill : AclObj → AclObj) (acc : AclFile × AclState)
    (same : SameOwner acc.1 owner) :
    Adds acc (aclStrings lib attr (fun obj => ubusdAclAllocObj obj fill) acc)
      (stringEntries lib owner attr fill) := by
  cases attr with
  | none => exact Adds.refl acc
  | some attr =>
    refine adds_foldl _ _ _ (fun acc item same => ?_) acc same
    by_cases string : (lib.blobmsgType item == .string) = true
    · rw [if_pos string, if_pos string]
      exact adds_allocObj_of_sameOwner _ _ _ same
    · rw [if_neg string, if_neg string]
      exact Adds.refl acc

theorem adds_access (obj : Bytes) (acc : AclFile × AclState) (same : SameOwner acc.1 owner) :
    Adds acc (ubusdAclAddAccess lib obj acc) (accessEntries lib owner obj) := by
  simp only [ubusdAclAddAccess, accessEntries]
  split
  · exact Adds.refl acc
  · exact adds_allocObj_of_sameOwner _ _ _ same

theorem SameOwner.trans {third : AclFile} (one : SameOwner first second)
    (two : SameOwner second third) : SameOwner first third := by
  obtain ⟨user, group, uid, gid, blob⟩ := one
  obtain ⟨user', group', uid', gid', blob'⟩ := two
  exact ⟨user.trans user', group.trans group', uid.trans uid', gid.trans gid', blob.trans blob'⟩

/-- **The entries of a file with a known owner.** -/
theorem adds_fileAdd (st : AclState) (known : aclFileOwner lib host file = some owner) :
    Adds (owner, st) (ubusdAclFileAdd lib host (file, st)) (ownerEntries lib owner) := by
  have blob : owner.blob = file.blob := by
    unfold aclFileOwner at known
    simp only at known
    split at known <;> cases known <;> rfl
  simp only [ubusdAclFileAdd, known, ownerEntries, blob]
  have same : SameOwner owner owner := ⟨rfl, rfl, rfl, rfl, rfl⟩
  have access : Adds (owner, st)
      (match lib.blobmsgParse aclPolicy (lib.blobData file.blob) (cstr "access") with
        | none => (owner, st)
        | some access => (lib.blobmsgForEachAttr access).foldl
            (fun acc cur => ubusdAclAddAccess lib cur acc) (owner, st))
      (match lib.blobmsgParse aclPolicy (lib.blobData file.blob) (cstr "access") with
        | none => []
        | some access => (lib.blobmsgForEachAttr access).flatMap (accessEntries lib owner)) := by
    split
    · exact Adds.refl _
    · exact adds_foldl _ _ _ (fun acc item same => adds_access lib item acc same) _ same
  have strings := fun (acc : AclFile × AclState) (new : List AclObj) (adds : Adds (owner, st) acc new)
      (attr : Option Bytes) (fill : AclObj → AclObj) =>
    adds.trans (adds_strings lib attr fill acc (adds.sameOwner.trans same))
  exact strings _ _ (strings _ _ (strings _ _ (strings _ _ access _ _) _ _) _ _) _ _

theorem aclFileOwner_stamp (host : Host) (name name' : CString) (version version' : Nat)
    (blob : Bytes) :
    aclFileOwner lib host { name, version, blob } =
      (aclFileOwner lib host { name := name', version := version', blob }).map
        fun owner => { owner with name, version } := by
  unfold aclFileOwner
  simp only
  split <;> rfl

theorem ownerEntries_congr (same : SameOwner first second) :
    ownerEntries lib first = ownerEntries lib second := by
  have entry : nameEntry first = nameEntry second := by
    funext obj fill
    unfold nameEntry
    rw [newAclObj_congr same]
  unfold ownerEntries stringEntries accessEntries
  rw [same.2.2.2.2, entry]

theorem blobEntries_stamp (host : Host) (name name' : CString) (version version' : Nat)
    (blob : Bytes) :
    blobEntries lib host { name, version, blob } =
      blobEntries lib host { name := name', version := version', blob } := by
  unfold blobEntries
  rw [aclFileOwner_stamp lib host name name' version version' blob]
  cases aclFileOwner lib host { name := name', version := version', blob } with
  | none => rfl
  | some owner => exact ownerEntries_congr lib ⟨rfl, rfl, rfl, rfl, rfl⟩

/-- **`ubusd_acl_file_add`** adds the entries the file describes; the file keeps its name and
version. -/
theorem fileAdd_spec (host : Host) (file : AclFile) (st : AclState) (fresh : file.acl = []) :
    ∃ owner, Adds (owner, st) (ubusdAclFileAdd lib host (file, st)) (blobEntries lib host file) ∧
      owner.name = file.name ∧ owner.version = file.version ∧ owner.acl = [] := by
  cases known : aclFileOwner lib host file with
  | none =>
    refine ⟨{ file with uid := -1, gid := -1 }, ?_, rfl, rfl, fresh⟩
    simp only [ubusdAclFileAdd, blobEntries, known]
    exact Adds.refl _
  | some owner =>
    have kept : owner.name = file.name ∧ owner.version = file.version ∧ owner.acl = file.acl := by
      unfold aclFileOwner at known
      simp only at known
      split at known <;> cases known <;> exact ⟨rfl, rfl, rfl⟩
    refine ⟨owner, ?_, kept.1, kept.2.1, kept.2.2.trans fresh⟩
    simp only [blobEntries, known]
    exact adds_fileAdd lib st known

/-! ### Consistency along every history -/

/-- **The tree holds exactly the entries of the loaded files**, each under its own address. -/
structure AclState.Consistent (st : AclState) : Prop where
  perm : st.acls.Perm (st.files.flatMap AclFile.acl)
  addrs : (st.acls.map Prod.fst).Nodup
  below : ∀ entry ∈ st.acls, entry.1 < st.brk
  names : (st.files.map AclFile.name).Nodup
  versions : ∀ file ∈ st.files, file.version ≤ st.version
  sorted : st.Sorted

theorem AclState.Consistent.init : AclState.Consistent {} where
  perm := List.Perm.refl _
  addrs := List.nodup_nil
  below := by simp
  names := List.nodup_nil
  versions := by simp
  sorted := List.Pairwise.nil

theorem filter_perm_of_out {α : Type} {all out rest : List α} {keep : α → Bool}
    (perm : all.Perm (out ++ rest)) (nodup : all.Nodup)
    (spec : ∀ entry, keep entry = true ↔ entry ∉ out) : (all.filter keep).Perm rest := by
  have apart := (List.nodup_append.mp (perm.nodup_iff.mp nodup)).2.2
  have outside : out.filter keep = [] :=
    List.filter_eq_nil_iff.mpr fun entry member kept => (spec entry).mp kept member
  have inside : rest.filter keep = rest :=
    List.filter_eq_self.mpr fun entry member =>
      (spec entry).mpr fun inOut => apart entry inOut entry member rfl
  have split := perm.filter keep
  rwa [List.filter_append, outside, inside, List.nil_append] at split

theorem AclState.Consistent.free (ok : st.Consistent) {rest : List AclFile}
    (files : st.files.Perm (file :: rest)) :
    (ubusdAclFileFree file { st with files := rest }).Consistent where
  perm := by
    have all := ok.perm.trans (files.flatMap_right AclFile.acl)
    rw [List.flatMap_cons] at all
    exact filter_perm_of_out all (List.Nodup.of_map _ ok.addrs) fun entry => by simp
  addrs := ok.addrs.sublist (List.filter_sublist.map _)
  below := fun entry member => ok.below entry (List.mem_of_mem_filter member)
  names := ((files.map AclFile.name).nodup_iff.mp ok.names).of_cons
  versions := fun other member => ok.versions other (files.mem_iff.mpr (List.mem_cons_of_mem _ member))
  sorted := List.Pairwise.sublist List.filter_sublist ok.sorted

theorem perm_of_find {files : List AclFile} {name : CString} {old : AclFile}
    (names : (files.map AclFile.name).Nodup)
    (found : files.find? (fun file => file.name == name) = some old) :
    files.Perm (old :: files.filter fun file => file.name != name) := by
  have member := List.mem_of_find?_eq_some found
  have hit : old.name = name := by simpa using List.find?_some found
  have others := (List.perm_cons_erase member).map AclFile.name
  have apart := (List.nodup_cons.mp (others.nodup_iff.mp names)).1
  have dropped : (files.erase old).filter (fun file => file.name != name) = files.erase old :=
    List.filter_eq_self.mpr fun file inside => by
      have differs : file.name ≠ name := fun same =>
        apart (List.mem_map.mpr ⟨file, inside, same.trans hit.symm⟩)
      simpa using differs
  have filtered := (List.perm_cons_erase member).filter fun file => file.name != name
  rw [List.filter_cons_of_neg (by simp [hit]), dropped] at filtered
  exact (List.perm_cons_erase member).trans (List.Perm.cons old filtered.symm)

theorem AclState.Consistent.add (ok : st.Consistent) (adds : Adds (owner, st) after new)
    (empty : owner.acl = []) (absent : ∀ file ∈ st.files, file.name ≠ owner.name)
    (version : owner.version = st.version) :
    (vlistEnter after).Consistent ∧ (vlistEnter after).version = st.version ∧
      (vlistEnter after).files.Perm (after.1 :: st.files) ∧ after.1.name = owner.name ∧
      after.1.version = st.version ∧ (after.1.acl.map Prod.snd).Perm new := by
  obtain ⟨entries, same, file, tree, nodup, range, brk, files, versions, sorted⟩ := adds
  simp only at tree range brk files versions sorted
  have acl : after.1.acl = entries := by rw [file, empty, List.append_nil]
  have name : after.1.name = owner.name := by rw [file]
  have stamp : after.1.version = st.version := by rw [file, ← version]
  have entered : (vlistEnter after).files.Perm (after.1 :: st.files) := by
    rw [← files]
    exact insertBy_perm _ _ _
  refine ⟨⟨?_, ?_, ?_, ?_, ?_, ?_⟩, versions, entered, name, stamp, by rw [acl]; exact same⟩
  · have listed := entered.flatMap_right AclFile.acl
    rw [List.flatMap_cons, acl] at listed
    exact (tree.trans (ok.perm.append_left entries)).trans listed.symm
  · have addrs := tree.map Prod.fst
    rw [List.map_append] at addrs
    refine addrs.nodup_iff.mpr (List.nodup_append.mpr ⟨nodup, ok.addrs, ?_⟩)
    intro addr inNew other inOld equal
    obtain ⟨entry, member, rfl⟩ := List.mem_map.mp inNew
    obtain ⟨old, member', rfl⟩ := List.mem_map.mp inOld
    have low := (range entry member).1
    have high := ok.below old member'
    omega
  · intro entry member
    rcases List.mem_append.mp (tree.mem_iff.mp member) with member | member
    · exact (range entry member).2
    · exact lt_of_lt_of_le (ok.below entry member) brk
  · refine (entered.map AclFile.name).nodup_iff.mpr (List.nodup_cons.mpr ⟨?_, ok.names⟩)
    intro member
    obtain ⟨other, inside, equal⟩ := List.mem_map.mp member
    exact absent other inside (equal.trans name)
  · intro other member
    show other.version ≤ after.2.version
    rw [versions]
    rcases List.mem_cons.mp (entered.mem_iff.mp member) with rfl | member
    · exact le_of_eq stamp
    · exact ok.versions other member
  · exact sorted ok.sorted

/-- **`ubusd_acl_load_file`**: the file of this name is the one just read, the others are kept. -/
theorem loadFile_spec (host : Host) (path : DirFile) (blob : Bytes)
    (parsed : path.blob = some blob) (ok : st.Consistent) :
    (ubusdAclLoadFile lib host path st).Consistent ∧
      (ubusdAclLoadFile lib host path st).version = st.version ∧
      ∃ file : AclFile, file.name = path.name ∧ file.version = st.version ∧
        (file.acl.map Prod.snd).Perm
          (blobEntries lib host { name := path.name, version := 0, blob }) ∧
        (ubusdAclLoadFile lib host path st).files.Perm
          (file :: st.files.filter fun other => other.name != path.name) := by
  -- the state once a file of the same name is gone
  obtain ⟨cleared, reads, okCleared, sameVersion, rest⟩ : ∃ cleared : AclState,
      ubusdAclLoadFile lib host path st =
        vlistEnter (ubusdAclFileAdd lib host
          ({ name := path.name, version := cleared.version, blob }, cleared)) ∧
      cleared.Consistent ∧ cleared.version = st.version ∧
      cleared.files = st.files.filter fun other => other.name != path.name := by
    simp only [ubusdAclLoadFile, parsed]
    cases found : st.files.find? fun file => file.name == path.name with
    | none =>
      refine ⟨st, rfl, ok, rfl, (List.filter_eq_self.mpr fun file member => ?_).symm⟩
      simpa using List.find?_eq_none.mp found file member
    | some old => exact ⟨_, rfl, ok.free (perm_of_find ok.names found), rfl, rfl⟩
  obtain ⟨owner, adds, name, version, empty⟩ := fileAdd_spec lib host
    { name := path.name, version := cleared.version, blob } cleared rfl
  have absent : ∀ file ∈ cleared.files, file.name ≠ owner.name := by
    intro file member
    rw [rest] at member
    simpa [name] using (List.mem_filter.mp member).2
  obtain ⟨okAfter, versionAfter, filesAfter, nameAfter, stampAfter, entries⟩ :=
    okCleared.add adds empty absent version
  rw [blobEntries_stamp lib host path.name path.name cleared.version 0 blob] at entries
  rw [rest] at filesAfter
  rw [reads]
  exact ⟨okAfter, versionAfter.trans sameVersion, _, nameAfter.trans name,
    stampAfter.trans sameVersion, entries, filesAfter⟩

/-! ### The loop of a load, and the flush -/

/-- After the loop has seen `done`: the files that carry the current version are those read from
`done`, with the entries these describe. -/
structure Loaded (host : Host) (current : Nat) (done : List DirFile) (st : AclState) : Prop where
  ok : st.Consistent
  version : st.version = current
  entries : ((st.files.filter fun file => file.version == current).flatMap
      fun file => file.acl.map Prod.snd).Perm (done.flatMap (pathEntries lib host))
  names : ∀ file ∈ st.files, file.version = current → file.name ∈ done.map DirFile.name

theorem Loaded.step {done : List DirFile} (loaded : Loaded lib host current done st)
    (path : DirFile) (fresh : path.name ∉ done.map DirFile.name) :
    Loaded lib host current (done ++ [path])
      (if path.usable then ubusdAclLoadFile lib host path st else st) := by
  have more : ∀ file ∈ st.files, file.version = current →
      file.name ∈ (done ++ [path]).map DirFile.name := by
    intro file member stamp
    rw [List.map_append]
    exact List.mem_append_left _ (loaded.names file member stamp)
  -- a path that contributes nothing
  have skip : pathEntries lib host path = [] → Loaded lib host current (done ++ [path]) st := by
    intro nothing
    refine ⟨loaded.ok, loaded.version, ?_, more⟩
    rw [List.flatMap_append, List.flatMap_singleton, nothing, List.append_nil]
    exact loaded.entries
  cases parsed : path.blob with
  | none =>
    have same : (if path.usable then ubusdAclLoadFile lib host path st else st) = st := by
      simp [ubusdAclLoadFile, parsed]
    rw [same]
    exact skip (by simp [pathEntries, parsed])
  | some blob =>
    by_cases usable : path.usable = true
    · rw [if_pos usable]
      obtain ⟨ok, version, file, name, stamp, entries, files⟩ :=
        loadFile_spec lib host path blob parsed loaded.ok
      rw [loaded.version] at version stamp
      refine ⟨ok, version, ?_, ?_⟩
      · -- the replaced file did not carry the current version
        have kept : (st.files.filter fun other => other.name != path.name).filter
            (fun file => file.version == current) =
            st.files.filter fun file => file.version == current := by
          rw [List.filter_filter]
          refine List.filter_congr fun other member => ?_
          by_cases current' : other.version = current
          · have differs : other.name ≠ path.name := fun equal =>
              fresh (equal ▸ loaded.names other member current')
            simp [current', differs]
          · simp [current']
        have described : pathEntries lib host path =
            blobEntries lib host { name := path.name, version := 0, blob } := by
          simp [pathEntries, parsed, usable]
        have listed := (files.filter fun file => file.version == current).flatMap_right
          fun file => file.acl.map Prod.snd
        rw [List.filter_cons_of_pos (by simp [stamp]), kept, List.flatMap_cons] at listed
        refine listed.trans ((entries.append loaded.entries).trans ?_)
        rw [List.flatMap_append, List.flatMap_singleton, described]
        exact List.perm_append_comm
      · intro other member current'
        rcases List.mem_cons.mp (files.mem_iff.mp member) with rfl | member
        · rw [name]
          simp
        · exact more other (List.mem_of_mem_filter member) current'
    · rw [if_neg usable]
      exact skip (by simp [pathEntries, parsed, usable])

/-- **The loop of `ubusd_acl_load`**, over any paths with distinct names not seen before. -/
theorem Loaded.foldl (paths : List DirFile) :
    ∀ {done : List DirFile} {st : AclState}, Loaded lib host current done st →
      ((done ++ paths).map DirFile.name).Nodup →
      Loaded lib host current (done ++ paths) (paths.foldl (fun st path =>
        if path.usable then ubusdAclLoadFile lib host path st else st) st) := by
  induction paths with
  | nil =>
    intro done st loaded _
    rwa [List.append_nil]
  | cons path rest ih =>
    intro done st loaded nodup
    have fresh : path.name ∉ done.map DirFile.name := by
      rw [List.map_append, List.nodup_append] at nodup
      exact fun member => nodup.2.2 _ member _ (by simp) rfl
    have step := loaded.step lib path fresh
    have next := ih step (by rwa [List.append_assoc])
    rwa [List.append_assoc] at next

theorem flush_foldl (stale : List AclFile) :
    ∀ {st : AclState}, st.Consistent → stale.Nodup → (∀ file ∈ stale, file ∈ st.files) →
      let after := stale.foldl (fun st file =>
        ubusdAclFileFree file { st with files := st.files.erase file }) st
      after.Consistent ∧ after.version = st.version ∧
        after.files = st.files.filter fun file => file ∉ stale := by
  induction stale with
  | nil =>
    intro st ok _ _
    exact ⟨ok, rfl, by simp⟩
  | cons file rest ih =>
    intro st ok nodup inside
    obtain ⟨notIn, restNodup⟩ := List.nodup_cons.mp nodup
    have filesNodup : st.files.Nodup := List.Nodup.of_map _ ok.names
    have member := inside file List.mem_cons_self
    have step := ok.free (List.perm_cons_erase member)
    have still : ∀ other ∈ rest, other ∈ st.files.erase file := by
      intro other inRest
      have differs : other ≠ file := fun equal => notIn (equal ▸ inRest)
      exact (List.mem_erase_of_ne differs).mpr (inside other (List.mem_cons_of_mem _ inRest))
    obtain ⟨okAfter, version, files⟩ := ih step restNodup still
    refine ⟨okAfter, version, files.trans ?_⟩
    show (st.files.erase file).filter (fun other => other ∉ rest) = _
    rw [filesNodup.erase_eq_filter, List.filter_filter]
    refine List.filter_congr fun other _ => ?_
    simp only [List.mem_cons, not_or, bne, decide_not]
    cases decEq : decide (other = file) <;> simp_all

theorem flush_spec (ok : st.Consistent) :
    (vlistFlush st).Consistent ∧ (vlistFlush st).version = st.version ∧
      (vlistFlush st).files = st.files.filter fun file => file.version == st.version := by
  have filesNodup : st.files.Nodup := List.Nodup.of_map _ ok.names
  obtain ⟨okAfter, version, files⟩ := flush_foldl
    (st.files.filter fun file => file.version != st.version) ok
    (filesNodup.filter _) fun file member => List.mem_of_mem_filter member
  refine ⟨okAfter, version, files.trans (List.filter_congr fun file member => ?_)⟩
  by_cases current : file.version = st.version
  · simp [member, current]
  · simp [member, current]

/-! ### The load -/

theorem glob_eq_some_iff (dir : Directory) (fault : Bool) (paths : List DirFile) :
    glob dir fault = some paths ↔ fault = false ∧ dir.files ≠ [] ∧ paths = dir.files := by
  unfold glob
  grind [List.isEmpty_iff]

theorem load_spec (host : Host) (dir : Directory) (fault : Bool) (ok : st.Consistent) :
    (ubusdAclLoad lib host dir fault st).Consistent ∧
      ((glob dir fault).isSome →
        (ubusdAclLoad lib host dir fault st).entries.Perm (describes lib host dir)) := by
  unfold ubusdAclLoad
  cases globbed : glob dir fault with
  | none => exact ⟨ok, fun some => by cases some⟩
  | some paths =>
    obtain ⟨-, -, rfl⟩ := (glob_eq_some_iff dir fault paths).mp globbed
    have start : Loaded lib host (st.version + 1) [] { st with version := st.version + 1 } := by
      refine ⟨⟨ok.perm, ok.addrs, ok.below, ok.names, ?_, ok.sorted⟩, rfl, ?_, ?_⟩
      · exact fun file member => Nat.le_succ_of_le (ok.versions file member)
      · rw [List.filter_eq_nil_iff.mpr]
        · exact List.Perm.refl _
        intro file member current
        have low := ok.versions file member
        have high : file.version = st.version + 1 := by simpa using current
        omega
      · intro file member current
        have low := ok.versions file member
        omega
    have loaded := start.foldl lib dir.files (by simpa using dir.nodup)
    rw [List.nil_append] at loaded
    obtain ⟨okFlush, _, files⟩ := flush_spec loaded.ok
    refine ⟨⟨okFlush.perm, okFlush.addrs, okFlush.below, okFlush.names, okFlush.versions,
      okFlush.sorted⟩, fun _ => ?_⟩
    have listed := okFlush.perm.map Prod.snd
    rw [files, loaded.version, List.map_flatMap] at listed
    exact listed.trans loaded.entries

theorem consistent_ubusdAclLoad (host : Host) (dir : Directory) (fault : Bool)
    (ok : st.Consistent) : (ubusdAclLoad lib host dir fault st).Consistent :=
  (load_spec lib host dir fault ok).1

theorem entries_ubusdAclLoad (host : Host) (dir : Directory) (fault : Bool) (ok : st.Consistent)
    (found : (glob dir fault).isSome) :
    (ubusdAclLoad lib host dir fault st).entries.Perm (describes lib host dir) :=
  (load_spec lib host dir fault ok).2 found

/-- One earlier call of `ubusd_acl_load`: what it found on the host and in the directory. -/
structure AclLoadInput where
  host : Host
  dir : Directory
  fault : Bool

/-- The access lists after a history of loads from start-up. -/
def aclHistory (history : List AclLoadInput) : AclState :=
  history.foldl (fun st input => ubusdAclLoad lib input.host input.dir input.fault st) {}

theorem consistent_aclHistory (history : List AclLoadInput) : (aclHistory lib history).Consistent := by
  unfold aclHistory
  suffices step : ∀ {st : AclState}, st.Consistent → (history.foldl (fun st input =>
      ubusdAclLoad lib input.host input.dir input.fault st) st).Consistent from
    step AclState.Consistent.init
  induction history with
  | nil => exact fun ok => ok
  | cons input rest ih => exact fun ok => ih (consistent_ubusdAclLoad lib _ _ _ ok)

/-- A host that knows one user. -/
def joeHost : Host := { getpwnam := fun _ => some 1000, getgrnam := fun _ => none }

/-- A file that lets a user listen to `foo`. -/
def joeFile : DirFile :=
  { name := cstr "joe.json", isReg := true, uid := 0, gid := 0, mode := 0o644
    blob := some (Blob.rawBlob [.msgString (cstr "user") (cstr "joe"),
      .msgArray (cstr "listen") [.msgString [] (cstr "foo")]]) }

end Ubus
