/-
**What holds in every state of a run.**

* `descriptors_linear`: as long as no `query` of the ACL object carried a descriptor, every
  descriptor that was received is at exactly one place or was closed exactly once.
  `aclQuery_closes_twice` is a run that ends with a descriptor closed twice: `ubusd_reply_query`
  copies the descriptor of the message into its reply and does not take it out of the message.
* `registry_intact`: the structures of the registry refer to each other as they should, and a
  disconnect leaves nothing behind.
-/

import Ubus.Blob
import Ubus.Moves

namespace Ubus

open Lib

/-! ### Inputs to look at -/

def rootCred : Cred :=
  { uid := 0, gid := 0, extraGid := [], user := some (cstr "root"), group := some (cstr "root") }

/-- A client connects and draws an id. -/
def connects (cred : Cred) (id : UInt32) : Input :=
  { action := .connect (some cred), rnd := [id], writes := [.sent 1000] }

/-- A message arrives, perhaps with a descriptor, and every `sendmsg` writes all it is given. -/
def receives (cl : Nat) (bytes : Bytes) (fd : Bool) : Input :=
  { action := .client cl false false bytes [] [.got 11 fd, .got 1000 false, .again]
    rnd := [4001, 4002, 4003], writes := List.replicate 8 (.sent 1000) }

/-! ### Descriptors -/

/-- **Descriptors are linear**: each one that was received is in one live buffer or pending at one
client, or was closed once. What a client has queued is live. -/
theorem descriptors_linear {lib : Libubox} {s : State} (reachable : Reachable lib s)
    (clean : Clean lib s.trace) :
    Linear (s.net.fdAt none) s.net.closed (· < s.net.fdBrk) ∧
      ∀ cl ∈ s.net.socks, ∀ ub ∈ (s.net.sock cl).refs, (s.net.buf ub).live = true :=
  ⟨reachable.inv.custody.linear clean, fun _ known _ member =>
    reachable.inv.custody.live_of_stored known member⟩

/-- A call of the ACL object that carries a descriptor. -/
def aclQueryRun : List Input :=
  [connects rootCred 5000,
    receives 3 (Blob.message .invoke 1 2 [.int32 .objid 2, .string .method (cstr "query")]) true]

/-- A ping that carries one. -/
def pingRun : List Input :=
  [connects rootCred 5000, receives 3 (Blob.message .ping 1 0 []) true]

theorem aclQuery_closes_twice :
    Reachable Blob.libubox (run Blob.libubox aclQueryRun State.init) ∧
      (run Blob.libubox aclQueryRun State.init).net.closed = [0, 0] ∧
      ¬ Linear ((run Blob.libubox aclQueryRun State.init).net.fdAt none)
        (run Blob.libubox aclQueryRun State.init).net.closed
        (· < (run Blob.libubox aclQueryRun State.init).net.fdBrk) := by
  have closed : (run Blob.libubox aclQueryRun State.init).net.closed = [0, 0] := by decide +kernel
  refine ⟨reachable_run _ _, closed, fun linear => ?_⟩
  have nodup := linear.nodup
  rw [closed] at nodup
  exact absurd nodup (by decide)

theorem descriptors_linear_ping :
    (run Blob.libubox pingRun State.init).net.closed = [0] ∧
      Linear ((run Blob.libubox pingRun State.init).net.fdAt none)
        (run Blob.libubox pingRun State.init).net.closed
        (· < (run Blob.libubox pingRun State.init).net.fdBrk) :=
  ⟨by decide +kernel, (descriptors_linear (reachable_run _ _) (by decide +kernel)).1⟩

/-! ### The registry -/

/-- **Referential integrity**, in the terms of the structures alone. -/
structure Intact (s : State) : Prop where
  /-- Ids are unique in their trees, and only system objects have a reserved one. -/
  clientIds : s.reg.clients.UniqueKeys ∧ ∀ node ∈ s.reg.clients, ubusSystemObjectMax ≤ node.1
  typeIds : s.reg.objTypes.UniqueKeys ∧ ∀ node ∈ s.reg.objTypes, ubusSystemObjectMax ≤ node.1
  objectIds : s.reg.objects.UniqueKeys ∧ ∀ node ∈ s.reg.objects,
    (s.reg.object node.2).client ≠ none → ubusSystemObjectMax ≤ node.1
  /-- A client lists the live objects it owns; only system objects have no owner. -/
  listed : ∀ cl obj, s.reg.HasClient cl →
    (obj ∈ (s.reg.client cl).objects ↔ s.reg.HasObject obj ∧ (s.reg.object obj).client = some cl)
  owned : ∀ obj cl, s.reg.HasObject obj → (s.reg.object obj).client = some cl → s.reg.HasClient cl
  unowned : ∀ obj, s.reg.HasObject obj → (s.reg.object obj).client = none →
    ∃ recv : RecvMsg, (s.reg.object obj).recvMsg = some recv ∧ (s.reg.object obj).id = recv.id
  /-- Paths are unique, and lead to the live objects that have one. -/
  paths : s.reg.path.UniqueKeys ∧ ∀ key obj,
    (key, obj) ∈ s.reg.path ↔ s.reg.HasObject obj ∧ (s.reg.object obj).path = some key
  /-- A subscription is in the lists of both ends. -/
  subscribers : ∀ obj sub, s.reg.HasObject obj → sub ∈ (s.reg.object obj).subscribers →
    (s.reg.subscription sub).target = obj ∧ s.reg.HasObject (s.reg.subscription sub).subscriber ∧
      sub ∈ (s.reg.object (s.reg.subscription sub).subscriber).targetList
  targets : ∀ obj sub, s.reg.HasObject obj → sub ∈ (s.reg.object obj).targetList →
    (s.reg.subscription sub).subscriber = obj ∧ s.reg.HasObject (s.reg.subscription sub).target ∧
      sub ∈ (s.reg.object (s.reg.subscription sub).target).subscribers
  /-- Its ends have different owners. -/
  strangers : ∀ obj sub, s.reg.HasObject obj → sub ∈ (s.reg.object obj).subscribers →
    ∃ cl owner, (s.reg.object (s.reg.subscription sub).subscriber).client = some cl ∧
      (s.reg.object obj).client = some owner ∧ cl ≠ owner
  /-- A pattern is in the list of exactly one object, which a client owns. -/
  patterns : ∀ node ∈ s.reg.patterns, ∃ obj, (s.reg.HasObject obj ∧
    node.2 ∈ (s.reg.object obj).events ∧ ∃ cl, (s.reg.object obj).client = some cl) ∧
      ∀ other, s.reg.HasObject other → node.2 ∈ (s.reg.object other).events → other = obj
  types : ∀ obj type, s.reg.HasObject obj → (s.reg.object obj).type = some type →
    s.reg.objTypes.Has type
  /-- Monitors are clients, and a client monitors once. -/
  monitors : (∀ m ∈ s.net.monitors, s.reg.HasClient m.cl) ∧
    (s.net.monitors.map Monitor.cl).Nodup

/-- Nothing in `s'` refers to a client of `s` or to what it owned. -/
structure Forgotten (cl : Nat) (s s' : State) : Prop where
  client : ¬ s'.reg.HasClient cl
  socket : cl ∉ s'.net.socks
  monitor : ∀ m ∈ s'.net.monitors, m.cl ≠ cl
  owner : ∀ obj, s'.reg.HasObject obj → (s'.reg.object obj).client ≠ some cl
  objects : ∀ obj, s.reg.HasObject obj → (s.reg.object obj).client = some cl →
    ¬ s'.reg.HasObject obj ∧ (∀ node ∈ s'.reg.path, node.2 ≠ obj) ∧
      (∀ other sub, s'.reg.HasObject other →
        (sub ∈ (s'.reg.object other).subscribers → (s'.reg.subscription sub).subscriber ≠ obj) ∧
        (sub ∈ (s'.reg.object other).targetList → (s'.reg.subscription sub).target ≠ obj)) ∧
      ∀ node ∈ s'.reg.patterns, (s'.reg.eventSource node.2).obj ≠ obj

theorem Inv.intact {lib : Libubox} {held : List Nat} {s : State} (inv : Inv lib held s) :
    Intact s where
  clientIds := ⟨inv.good.clients.unique, inv.good.clientIds⟩
  typeIds := ⟨inv.good.objTypes.unique, inv.good.typeIds⟩
  objectIds := by
    refine ⟨inv.good.objects.unique, fun node member owned => ?_⟩
    obtain ⟨cl, owner⟩ := Option.ne_none_iff_exists'.mp owned
    rw [← inv.good.objects.keys node member]
    exact (inv.good.owners.owned node.2 cl (AvlTree.has_of_mem member) owner).2
  listed := inv.good.owners.listed
  owned := fun obj cl has owner => (inv.good.owners.owned obj cl has owner).1
  unowned := fun obj has none => (inv.good.owners.unowned obj has none).resolve_right (by simp)
  paths := ⟨inv.good.paths.unique, inv.good.paths.mem_iff⟩
  subscribers := inv.good.subs.subscribers
  targets := inv.good.subs.targets
  strangers := inv.good.subs.owners
  patterns := by
    intro node member
    obtain ⟨_, has, listed, owner⟩ := inv.good.patterns.owner node member
    exact ⟨_, ⟨has, listed, owner⟩, fun other has' listed' =>
      (inv.good.patterns.events other node.2 has' listed').1.symm⟩
  types := inv.good.types.known
  monitors := ⟨inv.monitors.live, inv.monitors.nodup⟩

theorem Inv.forgotten {lib : Libubox} {held : List Nat} {cl : Nat} {s s' : State}
    (inv : Inv lib held s') (absent : cl ∉ s'.net.socks)
    (gone : ∀ obj, s.reg.HasObject obj → (s.reg.object obj).client = some cl →
      ¬ s'.reg.HasObject obj) : Forgotten cl s s' := by
  have client : ¬ s'.reg.HasClient cl := fun has => absent (inv.sockets cl has)
  refine ⟨client, absent, fun m member same => client (same ▸ inv.monitors.live m member),
    fun obj has owner => client (inv.good.owners.owned obj cl has owner).1, ?_⟩
  intro obj has owner
  have dead := gone obj has owner
  refine ⟨dead, ?_, fun other sub live => ⟨?_, ?_⟩, ?_⟩
  · rintro ⟨key, other⟩ member rfl
    exact dead ((inv.good.paths.mem_iff key other).mp member).1
  · rintro member rfl
    exact dead (inv.good.subs.subscribers other sub live member).2.1
  · rintro member rfl
    exact dead (inv.good.subs.targets other sub live member).2.1
  · rintro node member rfl
    exact dead (inv.good.patterns.owner node member).2.1

/-- **The registry is intact in every state**, and a client that disconnects is forgotten. -/
theorem registry_intact {lib : Libubox} {s : State} (reachable : Reachable lib s) :
    Intact s ∧ ∀ cl, s.reg.HasClient cl →
      Intact (handleClientDisconnect lib cl s) ∧
        Forgotten cl s (handleClientDisconnect lib cl s) := by
  refine ⟨reachable.inv.intact, fun cl has => ?_⟩
  obtain ⟨inv, absent, _, objects⟩ := disconnect_spec reachable.inv has
  exact ⟨inv.intact, inv.forgotten absent fun obj _ owner live =>
    ((objects obj).mp live).2 owner⟩

/-- A client adds an object. -/
def addRun : List Input :=
  [connects rootCred 5000,
    receives 3 (Blob.message .addObject 1 0 [.string .objpath (cstr "foo")]) false]

theorem registry_intact_add :
    (run Blob.libubox addRun State.init).reg.path = [(cstr "foo", 4)] ∧
      Intact (run Blob.libubox addRun State.init) ∧
      Forgotten 3 (run Blob.libubox addRun State.init)
        (handleClientDisconnect Blob.libubox 3 (run Blob.libubox addRun State.init)) := by
  obtain ⟨intact, forgotten⟩ := registry_intact (reachable_run Blob.libubox addRun)
  exact ⟨by decide +kernel, intact, (forgotten 3 (by decide +kernel)).2⟩

end Ubus
