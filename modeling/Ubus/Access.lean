/-
**Names and permissions** (`ubusd_acl.c`, `ubusd_event.c`).

* `AclObj.Admits`, `AclObj.Permits` — an entry of the access lists, read as a statement.
* `listen_covers_iff`: an accepted pattern only brings events that its owner may listen to, unless the
  pattern is partial and the access lists do not cover all that it starts (`listens_beyond`).
-/

import Mathlib.Data.List.TakeWhile
import Ubus.Refine
import Ubus.Safety

namespace Ubus

open Lib

/-! ### The walks -/

section Walks

variable (lib : Libubox)

/-- The credentials of a client match those of an entry: its user, or one of its groups. -/
def AclObj.Admits (acl : AclObj) (cred : Cred) : Prop :=
  (acl.uid ≠ -1 ∧ cred.uid = acl.uid) ∨
    (acl.gid ≠ -1 ∧ (cred.gid = acl.gid ∨ acl.gid ∈ cred.extraGid))

/-- An entry grants a permission. -/
def AclObj.Permits (acl : AclObj) (method : Option CString) : AclType → Prop
  | .publish => acl.publish = true
  | .subscribe => acl.subscribe = true
  | .listen => acl.listen = true
  | .send => acl.send = true
  | .access => ∃ methods, acl.methods = some methods ∧ ∃ cur ∈ lib.blobmsgForEachAttr methods,
      lib.blobmsgType cur = .string ∧
        (method = some (lib.blobmsgString cur) ∨ lib.blobmsgString cur = cstr "*")

theorem aclMatchCred_iff (cred : Cred) (acl : AclObj) :
    ubusdAclMatchCred cred acl = true ↔ acl.Admits cred := by
  simp only [ubusdAclMatchCred, AclObj.Admits, Bool.or_eq_true, Bool.and_eq_true, bne_iff_ne, ne_eq,
    beq_iff_eq, List.any_eq_true, exists_eq_right]

theorem grants_iff (acl : AclObj) (method : Option CString) (type : AclType) :
    acl.grants lib method type = true ↔ acl.Permits lib method type := by
  cases type with
  | access =>
    show acl.listsMethod lib method = true ↔ _
    unfold AclObj.listsMethod AclObj.Permits
    cases acl.methods with
    | none => simp
    | some methods =>
      simp only [List.any_eq_true, Bool.and_eq_true, Bool.or_eq_true, beq_iff_eq, Option.some.injEq,
        exists_eq_left', eq_comm (a := cstr "*")]
  | _ => exact Iff.rfl

variable {lib}

theorem eventRounds_all {s : State} (funded : Funded s) (cl : Option Nat) (rest : List Put)
    (reg : Registry) (nodes : AvlTree CString) :
    foldStop (eventRound lib cl rest reg) nodes (.ok, none, s) =
      nodes.foldl (fun acc node => (eventRound lib cl rest reg node acc).1) (.ok, none, s) := by
  refine foldStop_eq_foldl (fun acc => Funded acc.2.2 ∧ EventBuf acc.2.1 acc.2.2) nodes ?_
    ⟨funded, (nomatch ·, ·)⟩
  rintro node ⟨_, ub, t⟩ ⟨fundedT, event⟩
  obtain ⟨ub', t', sent, shows, event'⟩ : ∃ ub' t', ubusdSendEventMsg lib cl
      (reg.eventSource node.2).obj rest ub t = (.ok, ub', t') ∧ _ :=
    shows_sendEventMsg lib (⟨rfl, fundedT⟩ : Shows t t.bus) event
  simp only [eventRound, sent]
  exact ⟨rfl, shows.funded, event'⟩

/-- The end of `ubusd_send_event`, after its loop. -/
def eventEnd (walked : Status × Option Nat × State) : Status × State :=
  (walked.1, freeEventBuf walked.2.1 walked.2.2)

/-- Two clients listen to the event `x`. -/
def twoListeners : List Input :=
  [connects rootCred 5000,
    receives 3 (Blob.message .addObject 1 0 []) false,
    receives 3 (Blob.message .invoke 2 1 [.int32 .objid 1, .string .method (cstr "register"),
      .nest .data [.msgU32 (cstr "object") 4001, .msgString (cstr "pattern") (cstr "x")]]) false,
    connects rootCred 6000,
    receives 6 (Blob.message .addObject 1 0 []) false,
    receives 6 (Blob.message .invoke 2 1 [.int32 .objid 1, .string .method (cstr "register"),
      .nest .data [.msgU32 (cstr "object") 4002, .msgString (cstr "pattern") (cstr "x")]]) false]

end Walks

/-! ### What listening covers -/

section Listen

variable {lib : Libubox}

/-- The bytes that a C string may contain. -/
def cBytes : List UInt8 := (List.range 255).map fun n => UInt8.ofNat (n + 1)

/-- The entries that let a client listen, with their keys. -/
def listenEntries (acls : List AclObj) (cred : Cred) : List (CString × Bool) :=
  (acls.filter fun acl => ubusdAclMatchCred cred acl && acl.listen).map fun acl =>
    (acl.key, acl.isPartial)

/-- The access lists let a client listen to every event that a key starts. -/
def listensToAll (acls : List AclObj) (cred : Cred) (key : CString) : Bool :=
  coversAll (listenEntries acls cred) cBytes
    ((listenEntries acls cred).foldr (fun entry deepest => max entry.1.length deepest) 0) key

/-- The pattern in a call of `register`. -/
def registerPattern (lib : Libubox) (msg : Option Bytes) : CString :=
  ((msg.bind fun msg => lib.blobmsgParse evrPolicy (lib.blobData msg) (cstr "pattern")).map
    lib.blobmsgString).getD []

theorem mem_cBytes {byte : UInt8} : byte ∈ cBytes ↔ byte ≠ 0 := by
  simp only [cBytes, List.mem_map, List.mem_range]
  constructor
  · rintro ⟨n, small, rfl⟩ zero
    have := congrArg UInt8.toNat zero
    rw [UInt8.toNat_ofNat_of_lt' (Nat.succ_lt_succ small)] at this
    cases this
  · intro positive
    have notZero : byte.toNat ≠ 0 := fun zero => positive (UInt8.toNat_inj.mp zero)
    have bound := byte.toNat_lt
    refine ⟨byte.toNat - 1, by omega, ?_⟩
    rw [Nat.sub_add_cancel (Nat.pos_of_ne_zero notZero), UInt8.ofNat_toNat]

theorem listen_iff {acls : List AclObj} (sorted : AclSorted acls) {cred : Cred} (user : cred.uid ≠ 0)
    (id : CString) : ubusdAclCheck lib acls (some cred) (some id) none .listen = 0 ↔
      ∃ entry ∈ listenEntries acls cred, Covers entry.1 entry.2 id := by
  rw [ubusdAclCheck_eq_zero_iff lib sorted]
  simp only [reduceCtorEq, Option.some.injEq, exists_and_left, false_or, exists_eq_left', user,
    listenEntries, List.mem_map, List.mem_filter, Bool.and_eq_true]
  constructor
  · rintro ⟨acl, member, covers, admits, grants⟩
    exact ⟨_, ⟨acl, ⟨member, admits, grants⟩, rfl⟩, covers⟩
  · rintro ⟨_, ⟨acl, ⟨member, admits, grants⟩, rfl⟩, covers⟩
    exact ⟨acl, member, covers, admits, grants⟩

theorem length_le_deepest (entries : List (CString × Bool)) {entry : CString × Bool}
    (member : entry ∈ entries) :
    entry.1.length ≤ entries.foldr (fun entry deepest => max entry.1.length deepest) 0 := by
  induction entries with
  | nil => cases member
  | cons first rest ih =>
    rcases List.mem_cons.mp member with rfl | member
    · exact le_max_left _ _
    · exact (ih member).trans (le_max_right _ _)

variable (lib) in
theorem listensToAll_iff {acls : List AclObj} (sorted : AclSorted acls) {cred : Cred}
    (user : cred.uid ≠ 0) {key : CString} (text : 0 ∉ key) :
    listensToAll acls cred key = true ↔ ∀ id, 0 ∉ id → Covers key true id →
      ubusdAclCheck lib acls (some cred) (some id) none .listen = 0 := by
  rw [listensToAll, coversAll_iff (by decide) _ _ fun entry member =>
    (length_le_deepest _ member).trans (Nat.le_add_left _ _)]
  refine forall_congr' fun id => ?_
  rw [listen_iff sorted user]
  constructor
  · intro all word covers
    have starts : key <+: id := covers.elim (fun same => same ▸ List.prefix_rfl) And.right
    obtain ⟨tail, rfl⟩ := starts
    refine all ⟨tail, rfl, fun byte member => mem_cBytes.mpr ?_⟩
    rintro rfl
    exact word (List.mem_append_right _ member)
  · rintro all ⟨tail, rfl, inside⟩
    refine all (fun zero => ?_) (Or.inr ⟨rfl, List.prefix_append _ _⟩)
    rcases List.mem_append.mp zero with member | member
    · exact text member
    · exact mem_cBytes.mp (inside 0 member) rfl

theorem registered_spec {cl : Nat} {msg : Option Bytes} {reg reg' : Registry}
    (accepted : ubusdAllocEventPattern lib cl msg reg = (.ok, reg')) :
    ∃ obj, reg' = newEventSource obj (splitPattern (registerPattern lib msg)).1
        (splitPattern (registerPattern lib msg)).2 reg ∧
      ubusdAclCheck lib reg.acl.entries (some (reg.client cl).cred)
        (some (splitPattern (registerPattern lib msg)).1) none .listen = 0 := by
  unfold ubusdAllocEventPattern at accepted
  split at accepted
  · cases accepted
  rename_i msg
  simp only at accepted
  split at accepted
  · rename_i object pattern hasObject hasPattern
    have same : registerPattern lib (some msg) = lib.blobmsgString pattern := by
      simp [registerPattern, hasPattern]
    rw [same]
    split at accepted
    · cases accepted
    split at accepted
    · cases accepted
    rename_i obj found
    split at accepted
    · cases accepted
    split at accepted
    · cases accepted
    split at accepted
    · cases accepted
    · rename_i allowed
      exact ⟨obj, (Prod.mk.inj accepted).2.symm, not_not.mp allowed⟩
  · cases accepted

theorem splitPattern_text {pattern : CString} (text : 0 ∉ pattern) : 0 ∉ (splitPattern pattern).1 := by
  unfold splitPattern
  split
  · exact fun zero => text (List.dropLast_subset _ zero)
  · exact text

/-- **An accepted pattern brings only events that its owner may listen to**, exactly when it is not
partial or the access lists let the owner listen to all that it starts. -/
theorem listen_covers_iff (strings : ∀ attr, 0 ∉ lib.blobmsgString attr) {cl : Nat}
    {msg : Option Bytes} {reg reg' : Registry} (sorted : AclSorted reg.acl.entries)
    (user : (reg.client cl).cred.uid ≠ 0)
    (accepted : ubusdAllocEventPattern lib cl msg reg = (.ok, reg')) :
    (∀ id, 0 ∉ id →
      Covers (reg'.eventSource reg.brk).key (reg'.eventSource reg.brk).isPartial id →
        ubusdAclCheck lib reg.acl.entries (some (reg.client cl).cred) (some id) none .listen = 0) ↔
      ((splitPattern (registerPattern lib msg)).2 = true →
        listensToAll reg.acl.entries (reg.client cl).cred
          (splitPattern (registerPattern lib msg)).1 = true) := by
  obtain ⟨obj, rfl, allowed⟩ := registered_spec accepted
  have source : (newEventSource obj (splitPattern (registerPattern lib msg)).1
      (splitPattern (registerPattern lib msg)).2 reg).eventSource reg.brk =
      { obj, key := (splitPattern (registerPattern lib msg)).1
        isPartial := (splitPattern (registerPattern lib msg)).2 } :=
    Function.update_self ..
  have text : 0 ∉ registerPattern lib msg := by
    unfold registerPattern
    rcases msg.bind _ with _ | attr
    · exact List.not_mem_nil
    · exact strings attr
  have keyText := splitPattern_text text
  rw [source]
  simp only
  generalize splitPattern (registerPattern lib msg) = pattern at allowed keyText ⊢
  obtain ⟨key, _ | _⟩ := pattern
  · refine ⟨fun _ isPartial => (nomatch isPartial), fun _ id _ covers => ?_⟩
    rcases covers with rfl | ⟨isPartial, -⟩
    · exact allowed
    · cases isPartial
  · have all := listensToAll_iff lib sorted user keyText
    exact ⟨fun each _ => all.mpr each, fun holds => all.mp (holds rfl)⟩

/-- An unprivileged client with an object, and access lists that let it listen to `foo`. -/
def joeRun : List Input :=
  [{ action := .aclLoad joeHost ⟨[joeFile], List.nodup_singleton _⟩ false },
    connects { uid := 1000, gid := 1000, extraGid := [], user := none, group := none } 5000,
    receives 3 (Blob.message .addObject 1 0 []) false]

/-- The call of `register` for a pattern. -/
def registerCall (pattern : CString) : Bytes :=
  Blob.rawBlob [.msgU32 (cstr "object") 4001, .msgString (cstr "pattern") pattern]

theorem blobmsgString_text (attr : Bytes) : 0 ∉ Blob.libubox.blobmsgString attr := by
  intro zero
  have inside : (0 : UInt8) ∈ (Blob.msgData attr).takeWhile fun byte => byte ≠ 0 := zero
  have passed := List.mem_takeWhile_imp inside
  exact absurd passed (by decide)

theorem listen_covers_foo : ∃ reg reg', reg = (run Blob.libubox joeRun State.init).reg ∧
    ubusdAllocEventPattern Blob.libubox 3 (some (registerCall (cstr "foo"))) reg = (.ok, reg') ∧
    ∀ id, 0 ∉ id →
      Covers (reg'.eventSource reg.brk).key (reg'.eventSource reg.brk).isPartial id →
        ubusdAclCheck Blob.libubox reg.acl.entries (some (reg.client 3).cred) (some id) none
          .listen = 0 := by
  obtain ⟨reg, start⟩ : ∃ reg, (run Blob.libubox joeRun State.init).reg = reg := ⟨_, rfl⟩
  have sorted : AclSorted reg.acl.entries := by
    rw [← start]
    unfold AclSorted
    decide +kernel
  have user : (reg.client 3).cred.uid ≠ 0 := by
    rw [← start]
    decide +kernel
  have ok : (ubusdAllocEventPattern Blob.libubox 3 (some (registerCall (cstr "foo"))) reg).1 = .ok := by
    rw [← start]
    decide +kernel
  obtain ⟨reg', accepted⟩ : ∃ reg', ubusdAllocEventPattern Blob.libubox 3
      (some (registerCall (cstr "foo"))) reg = (.ok, reg') := ⟨_, Prod.ext ok rfl⟩
  refine ⟨reg, reg', start.symm, accepted,
    (listen_covers_iff blobmsgString_text sorted user accepted).mpr ?_⟩
  rw [← start]
  decide +kernel

/-- **A client listens beyond its permission**: it may listen to `foo`, registers `foo*`, and is then
sent `foobar`. -/
theorem listens_beyond : ∃ reg reg', reg = (run Blob.libubox joeRun State.init).reg ∧
    (reg.client 3).cred.uid ≠ 0 ∧
    ubusdAllocEventPattern Blob.libubox 3 (some (registerCall (cstr "foo*"))) reg = (.ok, reg') ∧
    Covers (reg'.eventSource reg.brk).key (reg'.eventSource reg.brk).isPartial (cstr "foobar") ∧
    ubusdAclCheck Blob.libubox reg.acl.entries (some (reg.client 3).cred) (some (cstr "foobar")) none
      .listen ≠ 0 := by
  refine ⟨_, (ubusdAllocEventPattern Blob.libubox 3 (some (registerCall (cstr "foo*")))
    (run Blob.libubox joeRun State.init).reg).2, rfl, ?_, ?_, ?_, ?_⟩
  · decide +kernel
  · exact Prod.ext (by decide +kernel) rfl
  · decide +kernel
  · decide +kernel

end Listen

end Ubus
