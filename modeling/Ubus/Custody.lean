/-
**Custody of buffers and descriptors.**

A message buffer is referenced by the transmit and command queues of the clients, by their pending
and status messages, and by the code that is running (`held`); its counter says how often. A
descriptor is in the pending slot of a client or in one live buffer, until it is closed.

* `Custody clean held stale net` — both disciplines, the second only as far as `clean` holds. `stale`
  names a buffer whose descriptor field is a copy that counts no more, as between the two
  assignments by which the forwarding of a call hands a descriptor over.
* One lemma for each operation on buffers: `Custody.new`, `Custody.free`, `Custody.ref`,
  `Custody.enqueue` and so on.
-/

import Ubus.Lib.Ownership
import Ubus.Frame

namespace Ubus

open Lib

variable {s : State} {ub cl n msg : Nat} {f : Sock → Sock}

/-- The messages of a client that are pending or queued. -/
def Sock.mail (sock : Sock) : List Nat :=
  sock.cmdQueue.map ClientCmd.msg ++ sock.rx.pendingMsg.toList

/-- The messages a client keeps, apart from those waiting to be sent. -/
def Sock.posts (sock : Sock) : List Nat := sock.mail ++ sock.retmsg.toList

/-- The buffers a client refers to. -/
def Sock.refs (sock : Sock) : List Nat := sock.tx.txQueue ++ sock.posts

/-- A buffer is kept by a client. -/
def Net.Kept (net : Net) (ub : Nat) : Prop := ∃ cl ∈ net.socks, ub ∈ (net.sock cl).posts

/-- How often a buffer may be referenced; an external buffer has one owner. -/
def MsgBuf.weight (buf : MsgBuf) : Nat :=
  if buf.live then
    match buf.refcount with
    | .external => 1
    | .count n => n
  else 0

/-- Where a descriptor can be. -/
inductive Place where
  | buf (ub : Nat)
  | pending (cl : Nat)
deriving DecidableEq

/-- The descriptor at a place. -/
def Net.fdAt (net : Net) (stale : Option Nat) : Place → Option Nat
  | .buf ub => if (net.buf ub).live = true ∧ stale ≠ some ub then (net.buf ub).fd else none
  | .pending cl => if cl ∈ net.socks then (net.sock cl).rx.pendingMsgFd else none

/-- **Buffers are counted, descriptors are linear.** -/
structure Custody (clean : Prop) (held : List Nat) (stale : Option Nat) (net : Net) : Prop where
  counted : Counted held net.socks (fun cl => (net.sock cl).refs) fun ub => (net.buf ub).weight
  positive : ∀ ub, (net.buf ub).live = true → 0 < (net.buf ub).weight
  below : ∀ ub, (net.buf ub).live = true → ub < net.brk
  staleBelow : ∀ ub, stale = some ub → ub < net.brk
  linear : clean → Linear (net.fdAt stale) net.closed (· < net.fdBrk)

theorem MsgBuf.live_of_weight {buf : MsgBuf} (positive : 0 < buf.weight) : buf.live = true := by
  unfold MsgBuf.weight at positive
  split at positive
  · assumption
  · cases positive

theorem MsgBuf.weight_congr {first second : MsgBuf} (live : first.live = second.live)
    (refcount : first.refcount = second.refcount) : first.weight = second.weight := by
  unfold MsgBuf.weight
  rw [live, refcount]

namespace Custody

variable {clean : Prop} {held : List Nat} {stale : Option Nat} {net net' : Net}

theorem live_of_held (custody : Custody clean held stale net) (member : ub ∈ held) :
    (net.buf ub).live = true :=
  MsgBuf.live_of_weight (custody.counted.pos_of_held member)

theorem lt_of_held (custody : Custody clean held stale net) (member : ub ∈ held) : ub < net.brk :=
  custody.below ub (custody.live_of_held member)

theorem live_of_stored (custody : Custody clean held stale net) (known : cl ∈ net.socks)
    (member : ub ∈ (net.sock cl).refs) : (net.buf ub).live = true :=
  MsgBuf.live_of_weight (custody.counted.pos_of_stored known member)

theorem live_of_kept (custody : Custody clean held stale net) (kept : net.Kept ub) :
    (net.buf ub).live = true := by
  obtain ⟨cl, known, member⟩ := kept
  exact custody.live_of_stored known (List.mem_append_right _ member)

theorem mono (custody : Custody clean held stale net) {clean' : Prop} (less : clean' → clean) :
    Custody clean' held stale net :=
  ⟨custody.counted, custody.positive, custody.below, custody.staleBelow,
    fun holds => custody.linear (less holds)⟩

theorem change {held' : List Nat} (custody : Custody clean held stale net)
    (bufs : ∀ other, other ≠ ub → net'.buf other = net.buf other) (brk : net.brk ≤ net'.brk)
    (here : (net'.buf ub).live = true → 0 < (net'.buf ub).weight ∧ ub < net'.brk)
    (counted : Counted held' net'.socks (fun cl => (net'.sock cl).refs) fun ub => (net'.buf ub).weight)
    (linear : clean → Linear (net'.fdAt stale) net'.closed (· < net'.fdBrk)) :
    Custody clean held' stale net' := by
  refine ⟨counted, fun other live => ?_, fun other live => ?_,
    fun other same => lt_of_lt_of_le (custody.staleBelow other same) brk, linear⟩
  all_goals
    by_cases same : other = ub
    · subst same
      simp only [here live]
    rw [bufs other same] at *
  · exact custody.positive other live
  · exact lt_of_lt_of_le (custody.below other live) brk

theorem relinear {stale' : Option Nat} (custody : Custody clean held stale net)
    (socks : net'.socks = net.socks) (brk : net.brk ≤ net'.brk)
    (bufs : ∀ ub, (net'.buf ub).live = (net.buf ub).live ∧
      (net'.buf ub).refcount = (net.buf ub).refcount)
    (refs : ∀ cl, (net'.sock cl).refs = (net.sock cl).refs)
    (below : ∀ ub, stale' = some ub → ub < net'.brk)
    (linear : clean → Linear (net'.fdAt stale') net'.closed (· < net'.fdBrk)) :
    Custody clean held stale' net' := by
  have weight : ∀ ub, (net'.buf ub).weight = (net.buf ub).weight := fun ub =>
    MsgBuf.weight_congr (bufs ub).1 (bufs ub).2
  refine ⟨?_, ?_, ?_, below, linear⟩
  · rw [socks]
    exact custody.counted.congr (fun cl _ => refs cl) weight
  · intro ub live
    rw [weight]
    exact custody.positive ub ((bufs ub).1 ▸ live)
  · intro ub live
    exact lt_of_lt_of_le (custody.below ub ((bufs ub).1 ▸ live)) brk

theorem congr (custody : Custody clean held stale net) (socks : net'.socks = net.socks)
    (brk : net.brk ≤ net'.brk) (closed : net'.closed = net.closed) (fdBrk : net'.fdBrk = net.fdBrk)
    (bufs : ∀ ub, (net'.buf ub).live = (net.buf ub).live ∧
      (net'.buf ub).refcount = (net.buf ub).refcount ∧ (net'.buf ub).fd = (net.buf ub).fd)
    (refs : ∀ cl, (net'.sock cl).refs = (net.sock cl).refs)
    (fds : ∀ cl, (net'.sock cl).rx.pendingMsgFd = (net.sock cl).rx.pendingMsgFd) :
    Custody clean held stale net' := by
  refine custody.relinear socks brk (fun ub => ⟨(bufs ub).1, (bufs ub).2.1⟩) refs
    (fun ub same => lt_of_lt_of_le (custody.staleBelow ub same) brk) fun holds => ?_
  rw [closed, fdBrk]
  refine (custody.linear holds).congr fun place => ?_
  cases place with
  | buf ub => simp only [Net.fdAt, (bufs ub).1, (bufs ub).2.2]
  | pending cl => simp only [Net.fdAt, socks, fds]

theorem mapBuf_counted {f : MsgBuf → MsgBuf} (live : (f (s.net.buf ub)).live = (s.net.buf ub).live)
    (refcount : (f (s.net.buf ub)).refcount = (s.net.buf ub).refcount) (other : Nat) :
    ((s.mapBuf ub f).net.buf other).live = (s.net.buf other).live ∧
      ((s.mapBuf ub f).net.buf other).refcount = (s.net.buf other).refcount :=
  ⟨update_keeps MsgBuf.live s.net.buf live other, update_keeps MsgBuf.refcount s.net.buf refcount other⟩

theorem fdAt_mapBuf {f : MsgBuf → MsgBuf} {place : Place} (differs : place ≠ .buf ub) :
    (s.mapBuf ub f).net.fdAt stale place = s.net.fdAt stale place := by
  cases place with
  | buf other => simp [Net.fdAt, State.mapBuf, show other ≠ ub from fun same => differs (same ▸ rfl)]
  | pending cl => rfl

theorem fdAt_mapSock {place : Place} (differs : place ≠ .pending cl) :
    (s.mapSock cl f).net.fdAt stale place = s.net.fdAt stale place := by
  cases place with
  | buf other => rfl
  | pending other => simp [Net.fdAt, State.mapSock, show other ≠ cl from fun same => differs (same ▸ rfl)]

theorem fdAt_stale {place : Place} (differs : place ≠ .buf ub) :
    net.fdAt (some ub) place = net.fdAt none place := by
  cases place with
  | buf other => simp [Net.fdAt, show ¬ ub = other from fun same => differs (same ▸ rfl)]
  | pending cl => rfl

/-! ### Buffers -/

theorem alloc (custody : Custody clean held stale s.net) (data : Payload) (shared : Bool) :
    Custody clean (s.net.brk :: held) stale (allocBuf data shared s).net := by
  have dead : (s.net.buf s.net.brk).live = false := by
    by_contra live
    have low := custody.below s.net.brk (by simpa using live)
    omega
  have zero : (s.net.buf s.net.brk).weight = 0 := by simp [MsgBuf.weight, dead]
  have one : ((allocBuf data shared s).net.buf s.net.brk).weight = 1 := by
    cases shared <;> simp [allocBuf, State.mapBuf, MsgBuf.weight]
  have bufs : ∀ other, other ≠ s.net.brk → (allocBuf data shared s).net.buf other = s.net.buf other :=
    fun other differs => Function.update_of_ne differs ..
  refine custody.change bufs (Nat.le_succ _) (fun _ => ⟨one.symm ▸ Nat.one_pos, Nat.lt_succ_self _⟩)
    (custody.counted.acquire s.net.brk (by rw [one, zero]) fun other differs => by rw [bufs other differs])
    fun holds => (custody.linear holds).congr fun place => ?_
  cases place with
  | buf ub =>
    by_cases same : ub = s.net.brk
    · simp [Net.fdAt, allocBuf, State.mapBuf, same, dead]
    · simp [Net.fdAt, bufs ub same]
  | pending cl => rfl

@[simp] theorem closeFd_buf (fd : Option Nat) (s : State) : (closeFd fd s).net.buf = s.net.buf := by
  cases fd <;> rfl

@[simp] theorem closeFd_sock (fd : Option Nat) (s : State) :
    (closeFd fd s).net.sock = s.net.sock := by
  cases fd <;> rfl

@[simp] theorem closeFd_socks (fd : Option Nat) (s : State) :
    (closeFd fd s).net.socks = s.net.socks := by
  cases fd <;> rfl

@[simp] theorem closeFd_brk (fd : Option Nat) (s : State) : (closeFd fd s).net.brk = s.net.brk := by
  cases fd <;> rfl

@[simp] theorem closeFd_fdBrk (fd : Option Nat) (s : State) :
    (closeFd fd s).net.fdBrk = s.net.fdBrk := by
  cases fd <;> rfl

@[simp] theorem closeFd_fdAt (fd : Option Nat) (s : State) (place : Place) :
    (closeFd fd s).net.fdAt stale place = s.net.fdAt stale place := by
  cases fd <;> rfl

theorem closeFd_closed (fd : Option Nat) (s : State) :
    (closeFd fd s).net.closed = fd.toList ++ s.net.closed := by
  cases fd <;> rfl

theorem linear_close (custody : Custody clean held stale s.net) {f : MsgBuf → MsgBuf}
    (live : (s.net.buf ub).live = true) (fresh : stale ≠ some ub)
    (gone : (f (s.net.buf ub)).live = true → (f (s.net.buf ub)).fd = none) (holds : clean) :
    Linear (((closeFd (s.net.buf ub).fd s).mapBuf ub f).net.fdAt stale)
      ((closeFd (s.net.buf ub).fd s).mapBuf ub f).net.closed
      (· < ((closeFd (s.net.buf ub).fd s).mapBuf ub f).net.fdBrk) := by
  have here : (s.net.buf ub).fd = s.net.fdAt stale (.buf ub) := by simp [Net.fdAt, live, fresh]
  show Linear _ (closeFd (s.net.buf ub).fd s).net.closed (· < (closeFd (s.net.buf ub).fd s).net.fdBrk)
  rw [closeFd_closed, closeFd_fdBrk, here, ← here]
  nth_rewrite 2 [here]
  refine (custody.linear holds).close ?_ fun place differs => ?_
  · simpa [Net.fdAt, State.mapBuf] using fun isLive _ => gone isLive
  · rw [fdAt_mapBuf differs, closeFd_fdAt]

theorem release (custody : Custody clean (ub :: held) stale s.net)
    (last : (s.net.buf ub).weight = 1) (fresh : stale ≠ some ub) :
    Custody clean held stale (msgRelease ub s).net := by
  have live := custody.live_of_held List.mem_cons_self
  have bufs : ∀ other, other ≠ ub → (msgRelease ub s).net.buf other = s.net.buf other := fun other differs => by
    simp [msgRelease, State.mapBuf, differs]
  have dead : ((msgRelease ub s).net.buf ub).live = false := by simp [msgRelease, State.mapBuf]
  refine custody.change bufs (by simp [msgRelease, State.mapBuf]) (fun isLive => by simp [dead] at isLive) ?_
    (custody.linear_close live fresh fun isLive => by cases isLive)
  have counted : Counted held s.net.socks (fun cl => (s.net.sock cl).refs) fun ub' =>
      ((msgRelease ub s).net.buf ub').weight :=
    custody.counted.release (by rw [last]; simp [MsgBuf.weight, dead]) fun other differs => by
      rw [bufs other differs]
  simpa [msgRelease, State.mapBuf] using counted

theorem msgCloseFd (custody : Custody clean held stale s.net) (live : (s.net.buf ub).live = true)
    (fresh : stale ≠ some ub) : Custody clean held stale (ubusMsgCloseFd ub s).net := by
  have bufs : ∀ other, ((ubusMsgCloseFd ub s).net.buf other).live = ((closeFd (s.net.buf ub).fd s).net.buf
      other).live ∧ ((ubusMsgCloseFd ub s).net.buf other).refcount = _ := mapBuf_counted rfl rfl
  rw [closeFd_buf] at bufs
  refine custody.relinear ?_ ?_ bufs ?_ ?_ (custody.linear_close live fresh fun _ => rfl) <;>
    simp [ubusMsgCloseFd, State.mapBuf]
  exact custody.staleBelow

theorem recount {held' : List Nat} (custody : Custody clean held stale s.net)
    (live : (s.net.buf ub).live = true) (some' : 0 < n)
    (counted : ∀ weight : Nat → Nat, weight ub = n → (∀ other, other ≠ ub → weight other = (s.net.buf other).weight) → Counted held' s.net.socks (fun cl => (s.net.sock cl).refs) weight) :
    Custody clean held' stale (s.mapBuf ub fun buf => { buf with refcount := .count n }).net := by
  have weight : ((s.mapBuf ub fun buf => { buf with refcount := .count n }).net.buf ub).weight = n := by
    simp [State.mapBuf, MsgBuf.weight, live]
  have bufs : ∀ other, other ≠ ub → (s.mapBuf ub fun buf => { buf with refcount := .count n }).net.buf other =
      s.net.buf other := fun other differs => Function.update_of_ne differs ..
  refine custody.change bufs le_rfl (fun _ => ⟨weight.symm ▸ some', custody.below ub live⟩)
    (counted _ weight fun other differs => by rw [bufs other differs])
    fun holds => (custody.linear holds).congr fun place => ?_
  by_cases same : place = .buf ub
  · subst same
    simp [Net.fdAt, State.mapBuf]
  · exact fdAt_mapBuf same

/-- **`ubus_msg_free`** gives up a held reference. -/
theorem free (custody : Custody clean (ub :: held) stale s.net) (fresh : stale ≠ some ub) :
    Custody clean held stale (ubusMsgFree ub s).net := by
  have live := custody.live_of_held List.mem_cons_self
  have positive := custody.positive ub live
  unfold ubusMsgFree
  split
  · rename_i external
    exact custody.release (by simp [MsgBuf.weight, live, external]) fresh
  · rename_i one
    exact custody.release (by simp [MsgBuf.weight, live, one]) fresh
  rename_i n notOne count
  have weight : (s.net.buf ub).weight = n := by simp [MsgBuf.weight, live, count]
  have more : n ≠ 1 := notOne
  refine custody.recount live (by omega) fun weight' here others => ?_
  exact custody.counted.release (by omega) others

theorem ref (custody : Custody clean held stale s.net) (live : (s.net.buf ub).live = true)
    (count : (s.net.buf ub).refcount = .count n) :
    Custody clean (ub :: held) stale
      (s.mapBuf ub fun buf => { buf with refcount := .count (n + 1) }).net := by
  have weight : (s.net.buf ub).weight = n := by simp [MsgBuf.weight, live, count]
  refine custody.recount live (Nat.succ_pos n) fun weight' here others => ?_
  exact custody.counted.acquire ub (by omega) others

theorem moveFd {new : Nat} (custody : Custody clean held stale s.net)
    (live : (s.net.buf ub).live = true) (live' : (s.net.buf new).live = true)
    (empty : (s.net.buf new).fd = none) (differ : ub ≠ new) (fresh : stale ≠ some ub)
    (fresh' : stale ≠ some new) : Custody clean held stale (moveToCopy ub new s).net := by
  have bufs : ∀ other, ((moveToCopy ub new s).net.buf other).live = (s.net.buf other).live ∧
      ((moveToCopy ub new s).net.buf other).refcount = (s.net.buf other).refcount := by
    unfold moveToCopy
    intro other
    generalize first : s.mapBuf new _ = t
    obtain ⟨isLive, count⟩ : (t.net.buf other).live = (s.net.buf other).live ∧ _ :=
      first ▸ mapBuf_counted rfl rfl other
    rw [← isLive, ← count]
    exact mapBuf_counted rfl rfl other
  refine custody.relinear rfl le_rfl bufs (fun _ => rfl) custody.staleBelow fun holds => ?_
  refine (custody.linear holds).move (p := .buf ub) (q := .buf new) (by simpa using differ) ?_ ?_ ?_ ?_
  · simp [Net.fdAt, empty]
  · simp [Net.fdAt, moveToCopy, State.mapBuf]
  · simp [Net.fdAt, moveToCopy, State.mapBuf, differ.symm, live, live', fresh, fresh']
  · intro place notUb notNew
    exact (fdAt_mapBuf notUb).trans (fdAt_mapBuf notNew)

/-! ### Owners -/

theorem linear_mapSock (custody : Custody clean held stale s.net) (cl : Nat)
    (fd : (f (s.net.sock cl)).rx.pendingMsgFd = (s.net.sock cl).rx.pendingMsgFd) (holds : clean) :
    Linear ((s.mapSock cl f).net.fdAt stale) (s.mapSock cl f).net.closed
      (· < (s.mapSock cl f).net.fdBrk) := by
  refine (custody.linear holds).congr fun place => ?_
  by_cases same : place = .pending cl
  · subst same
    simp [Net.fdAt, State.mapSock, fd]
  · exact fdAt_mapSock same

theorem refs_mapSock (s : State) (cl : Nat) (f : Sock → Sock) :
    (fun other => ((s.mapSock cl f).net.sock other).refs) =
      Function.update (fun other => (s.net.sock other).refs) cl (f (s.net.sock cl)).refs := by
  funext other
  simp only [State.mapSock, Function.update_apply]
  split <;> rfl

theorem stow (custody : Custody clean (msg :: held) stale s.net) (known : cl ∈ s.net.socks)
    (added : (f (s.net.sock cl)).refs.Perm (msg :: (s.net.sock cl).refs))
    (fd : (f (s.net.sock cl)).rx.pendingMsgFd = (s.net.sock cl).rx.pendingMsgFd) :
    Custody clean held stale (s.mapSock cl f).net := by
  refine ⟨?_, custody.positive, custody.below, custody.staleBelow, custody.linear_mapSock cl fd⟩
  rw [refs_mapSock]
  exact custody.counted.stow known added

theorem fetch (custody : Custody clean held stale s.net) (known : cl ∈ s.net.socks)
    (taken : (s.net.sock cl).refs.Perm (msg :: (f (s.net.sock cl)).refs))
    (fd : (f (s.net.sock cl)).rx.pendingMsgFd = (s.net.sock cl).rx.pendingMsgFd) :
    Custody clean (msg :: held) stale (s.mapSock cl f).net := by
  refine ⟨?_, custody.positive, custody.below, custody.staleBelow, custody.linear_mapSock cl fd⟩
  rw [refs_mapSock]
  exact custody.counted.fetch known taken

theorem touch (custody : Custody clean held stale s.net)
    (refs : (f (s.net.sock cl)).refs = (s.net.sock cl).refs)
    (fd : (f (s.net.sock cl)).rx.pendingMsgFd = (s.net.sock cl).rx.pendingMsgFd) :
    Custody clean held stale (s.mapSock cl f).net := by
  refine ⟨?_, custody.positive, custody.below, custody.staleBelow, custody.linear_mapSock cl fd⟩
  rw [refs_mapSock, refs, Function.update_eq_self]
  exact custody.counted

theorem touchBuf (custody : Custody clean held stale s.net) {f : MsgBuf → MsgBuf}
    (live : (f (s.net.buf ub)).live = (s.net.buf ub).live)
    (refcount : (f (s.net.buf ub)).refcount = (s.net.buf ub).refcount)
    (fd : (f (s.net.buf ub)).fd = (s.net.buf ub).fd) :
    Custody clean held stale (s.mapBuf ub f).net := by
  refine custody.congr rfl le_rfl rfl rfl (fun other => ?_) (fun _ => rfl) fun _ => rfl
  obtain ⟨isLive, count⟩ := mapBuf_counted live refcount other
  exact ⟨isLive, count, update_keeps MsgBuf.fd s.net.buf fd other⟩

/-! ### The receiving side -/

theorem takePending (custody : Custody clean held none s.net) (known : cl ∈ s.net.socks)
    (taken : (s.net.sock cl).refs.Perm (ub :: (f (s.net.sock cl)).refs))
    (empty : (s.net.buf ub).fd = none) (gone : (f (s.net.sock cl)).rx.pendingMsgFd = none) :
    Custody clean (ub :: held) none ((s.mapBuf ub fun buf => { buf with
      fd := (s.net.sock cl).rx.pendingMsgFd }).mapSock cl f).net := by
  have live := custody.live_of_stored known (taken.mem_iff.mpr List.mem_cons_self)
  have fetched : Custody False (ub :: held) none (s.mapSock cl f).net :=
    ⟨by rw [refs_mapSock]; exact custody.counted.fetch known taken, custody.positive, custody.below,
      custody.staleBelow, False.elim⟩
  have bufs : ∀ other, ((s.mapBuf ub fun buf => { buf with fd := (s.net.sock cl).rx.pendingMsgFd }).net.buf
      other).live = _ ∧ _ := mapBuf_counted rfl rfl
  have moved : Custody False (ub :: held) none ((s.mapBuf ub fun buf => { buf with
      fd := (s.net.sock cl).rx.pendingMsgFd }).mapSock cl f).net :=
    fetched.relinear rfl le_rfl bufs (fun _ => rfl) nofun False.elim
  refine ⟨moved.counted, moved.positive, moved.below, nofun, fun holds => ?_⟩
  refine (custody.linear holds).move (p := .pending cl) (q := .buf ub) (by simp) ?_ ?_ ?_ ?_
  · simp [Net.fdAt, empty]
  · simp [Net.fdAt, State.mapSock, gone, State.mapBuf]
  · simp [Net.fdAt, State.mapSock, State.mapBuf, live, known]
  · intro place notPending notBuf
    rw [fdAt_mapSock notPending, fdAt_mapBuf notBuf]

theorem issueFd (custody : Custody clean held none s.net) (known : cl ∈ s.net.socks)
    (empty : (s.net.sock cl).rx.pendingMsgFd = none)
    (refs : (f (s.net.sock cl)).refs = (s.net.sock cl).refs)
    (here : (f (s.net.sock cl)).rx.pendingMsgFd = some s.net.fdBrk) :
    Custody clean held none { (s.mapSock cl f).net with fdBrk := s.net.fdBrk + 1 } := by
  refine custody.relinear rfl le_rfl (fun _ => ⟨rfl, rfl⟩) (update_keeps Sock.refs s.net.sock refs) nofun
    fun holds => ?_
  refine (custody.linear holds).issue (p := .pending cl) (lt_irrefl s.net.fdBrk) ?_ ?_ ?_ ?_
  · simp [Net.fdAt, empty]
  · simp [Net.fdAt, State.mapSock, known, here]
  · exact fun place differs => (fdAt_mapSock differs : (s.mapSock cl f).net.fdAt none place = _)
  · intro other
    show other < s.net.fdBrk + 1 ↔ other < s.net.fdBrk ∨ other = s.net.fdBrk
    omega

theorem closePending (custody : Custody clean held none s.net) (known : cl ∈ s.net.socks)
    (refs : (f (s.net.sock cl)).refs = (s.net.sock cl).refs)
    (gone : (f (s.net.sock cl)).rx.pendingMsgFd = none) :
    Custody clean held none
      (closeFd (s.net.sock cl).rx.pendingMsgFd (s.mapSock cl f)).net := by
  have same := update_keeps Sock.refs s.net.sock refs
  refine custody.relinear (by simp [State.mapSock]) (by simp [State.mapSock]) (fun _ => by simp [State.mapSock])
    (fun other => by rw [closeFd_sock]; exact same other) nofun fun holds => ?_
  have here : (s.net.sock cl).rx.pendingMsgFd = s.net.fdAt none (.pending cl) := by simp [Net.fdAt, known]
  rw [closeFd_closed, closeFd_fdBrk]
  nth_rewrite 2 [here]
  refine (custody.linear holds).close (by simp [Net.fdAt, State.mapSock, gone]) fun place differs => ?_
  rw [closeFd_fdAt, fdAt_mapSock differs]

theorem enlist {net : Net} (custody : Custody clean held none net) (fresh : cl ∉ net.socks)
    {sock : Sock} (refs : sock.refs = []) (noFd : sock.rx.pendingMsgFd = none) :
    Custody clean held none
      { net with socks := cl :: net.socks, sock := Function.update net.sock cl sock } := by
  refine ⟨?_, custody.positive, custody.below, custody.staleBelow, fun holds => ?_⟩
  · have old : Counted ([] ++ held) net.socks
        (fun other => (Function.update net.sock cl sock other).refs)
        (fun ub => (net.buf ub).weight) := by
      refine custody.counted.congr (fun other member => ?_) fun _ => rfl
      have differs : other ≠ cl := fun same => fresh (same ▸ member)
      simp [differs]
    exact old.enlist fresh (by simp [refs])
  · refine (custody.linear holds).congr fun place => ?_
    cases place with
    | buf other => rfl
    | pending other =>
      by_cases same : other = cl
      · subst same
        simp [Net.fdAt, fresh, noFd]
      · simp [Net.fdAt, same]

theorem dismiss {net : Net} (custody : Custody clean held none net)
    (refs : (net.sock cl).refs = []) (noFd : (net.sock cl).rx.pendingMsgFd = none) :
    Custody clean held none { net with socks := net.socks.erase cl } := by
  refine ⟨?_, custody.positive, custody.below, custody.staleBelow, fun holds => ?_⟩
  · exact custody.counted.dismiss refs
  refine (custody.linear holds).congr fun place => ?_
  cases place with
  | buf other => rfl
  | pending other =>
    by_cases same : other = cl
    · subst same
      simp [Net.fdAt, noFd]
    · simp [Net.fdAt, List.mem_erase_of_ne same]

/-! ### The transmit path -/

theorem new (custody : Custody clean held stale s.net) (data : Payload) (shared : Bool) :
    Custody clean ((ubusMsgNew data shared s).1.toList ++ held) stale
      (ubusMsgNew data shared s).2.net := by
  rcases ubusMsgNew_cases data shared s with failed | made
  · rw [failed]
    simpa [calloc_net] using custody
  rw [made]
  have called : Custody clean held stale s.calloc.2.net := by rwa [calloc_net]
  have allocated := called.alloc data shared
  rwa [calloc_brk] at allocated

theorem msgRef (custody : Custody clean held stale s.net) (live : (s.net.buf ub).live = true)
    (fresh : stale ≠ some ub) :
    Custody clean ((ubusMsgRef ub s).1.toList ++ held) stale (ubusMsgRef ub s).2.net := by
  unfold ubusMsgRef
  split
  · have made := custody.new (s.buf ub).data false
    rcases ubusMsgNew_cases (s.buf ub).data false s with failed | some'
    · rw [failed] at made
      simpa only [failed] using made
    have below := custody.below ub live
    have notNew : ub ≠ s.net.brk := by omega
    have freshNew : stale ≠ some s.net.brk := fun same =>
      absurd (custody.staleBelow _ same) (lt_irrefl _)
    rw [some'] at made
    simp only [some']
    refine Custody.moveFd made ?_ ?_ ?_ notNew fresh freshNew
    · simp [allocBuf, State.mapBuf, calloc_net, notNew, live]
    · exact made.live_of_held (List.mem_append_left _ (by simp))
    · simp [allocBuf, State.mapBuf, calloc_brk]
  · rename_i n count
    exact custody.ref live count

theorem enqueue (lib : Libubox) (custody : Custody clean held stale s.net)
    (known : cl ∈ s.net.socks) (live : (s.net.buf ub).live = true) (fresh : stale ≠ some ub) :
    Custody clean held stale (ubusMsgEnqueue lib cl ub s).2.net := by
  unfold ubusMsgEnqueue
  split
  · exact custody
  have called : Custody clean held stale s.calloc.2.net := by rwa [calloc_net]
  have known' : cl ∈ s.calloc.2.net.socks := by rwa [calloc_net]
  have live' : (s.calloc.2.net.buf ub).live = true := by rwa [calloc_net]
  rcases result : s.calloc with ⟨_ | _, s'⟩
  · rw [result] at called
    simpa only using called
  rw [result] at called known' live'
  have made := called.msgRef live' fresh
  have frame : Wire (fun _ => True) (fun _ => False) (fun _ => False) s' (ubusMsgRef ub s').2 :=
    wire_ref (by simp) (by simp)
  simp only
  rcases result' : ubusMsgRef ub s' with ⟨_ | msg, s''⟩
  · rw [result'] at made
    exact made
  rw [result'] at made frame
  simp only
  refine Custody.stow made (frame.mem_socks known') ?_ rfl
  simp only [Sock.refs, List.append_assoc]
  exact List.perm_middle

variable (lib : Libubox)

theorem enqueueRest (custody : Custody clean held stale s.net) (known : cl ∈ s.net.socks)
    (live : (s.net.buf ub).live = true) (fresh : stale ≠ some ub) (started : Bool) :
    Custody clean held stale (enqueueRest lib cl ub started s).net := by
  have queued := custody.enqueue lib known live fresh
  unfold Ubus.enqueueRest
  rcases result : ubusMsgEnqueue lib cl ub s with ⟨_ | _, s'⟩
  · rw [result] at queued
    simp only
    split
    · exact queued.touch rfl rfl
    · exact queued
  · rw [result] at queued
    exact queued

theorem nextWrite_net (s : State) : s.nextWrite.2.net = s.net := by
  unfold State.nextWrite
  split <;> rfl

theorem writev (custody : Custody clean held stale s.net) (cl ub offset : Nat)
    (out : WriteOutcome) :
    Custody clean held stale (ubusMsgWritev lib cl ub offset out s).2.net := by
  unfold ubusMsgWritev
  cases out with
  | again => exact custody
  | error => exact custody
  | sent extra => exact custody.touch rfl rfl

theorem writev_buf (cl ub offset : Nat) (out : WriteOutcome) (s : State) :
    (ubusMsgWritev lib cl ub offset out s).2.net.buf = s.net.buf := by
  unfold ubusMsgWritev
  cases out <;> rfl

theorem transmit (custody : Custody clean held stale s.net) (known : cl ∈ s.net.socks)
    (live : (s.net.buf ub).live = true) (fresh : stale ≠ some ub) :
    Custody clean held stale (transmit lib cl ub s).net := by
  unfold Ubus.transmit
  split
  · have called : Custody clean held stale s.nextWrite.2.net := by rwa [nextWrite_net]
    have written := called.writev lib cl ub 0 s.nextWrite.1
    have frame : Frame (fun _ => True) (fun _ => False) (fun _ => False) s
        (ubusMsgWritev lib cl ub 0 s.nextWrite.1 s.nextWrite.2).2 :=
      (wire_nextWrite s).toFrame.trans (wire_writev lib cl ub 0 _ _).toFrame
    have live' : ((ubusMsgWritev lib cl ub 0 s.nextWrite.1 s.nextWrite.2).2.net.buf ub).live =
        true := by
      rw [writev_buf, nextWrite_net]
      exact live
    simp only
    split
    · exact written
    · exact Custody.enqueueRest lib (s := State.mapTx cl _ _) (written.touch rfl rfl)
        (frame.mem_socks known) live' fresh _
  · exact custody.enqueueRest lib known live fresh _

theorem monitorSend (custody : Custody clean held stale s.net) (known : cl ∈ s.net.socks)
    (live : (s.net.buf ub).live = true) (fresh : stale ≠ some ub) :
    Custody clean held stale (monitorSend lib cl ub s).net := by
  unfold Ubus.monitorSend
  simp only
  split
  · exact custody
  · exact Custody.transmit lib custody known live fresh

/-- The clients that monitor are allocated. -/
def MonitorsKnown (net : Net) : Prop := ∀ m ∈ net.monitors, m.cl ∈ net.socks

theorem monitorDeliver {m : Monitor} (custody : Custody clean held stale s.net)
    (known : m.cl ∈ s.net.socks) (member : ub ∈ held) (fresh : stale ≠ some ub) :
    Custody clean held stale (monitorDeliver lib ub s m).net := by
  suffices stamped : Custody clean held stale (monitorStamp ub m s).net from
    Custody.monitorSend lib (s := monitorStamp ub m s) stamped known
      (stamped.live_of_held member) fresh
  have bumped : Custody clean held stale (bumpMonitor m s).net :=
    custody.congr rfl le_rfl rfl rfl (fun _ => ⟨rfl, rfl, rfl⟩) (fun _ => rfl) fun _ => rfl
  exact bumped.touchBuf rfl rfl rfl

theorem monitorDeliver_socks (s : State) (ub : Nat) (m : Monitor) :
    (Ubus.monitorDeliver lib ub s m).net.socks = s.net.socks := by
  have frame : Frame (fun _ => True) (fun _ => False) (fun _ => False) s
      (Ubus.monitorDeliver lib ub s m) :=
    (wire_monitorStamp m (by simp)).toFrame.trans (wire_monitorSend lib (by simp) (by simp) trivial).toFrame
  exact frame.socks

theorem monitorMessage {send : Bool} (custody : Custody clean held stale s.net)
    (monitors : MonitorsKnown s.net) :
    Custody clean held stale (ubusdMonitorMessage lib cl ub send s).net := by
  unfold ubusdMonitorMessage
  split
  · exact custody
  have made := custody.new
    (.monitor (monitorRecord lib (s.reg.client cl) (s.buf ub) send)) true
  rcases ubusMsgNew_cases (.monitor (monitorRecord lib (s.reg.client cl) (s.buf ub) send)) true s
    with failed | some'
  · rw [failed] at made
    simp only [failed]
    exact made
  · have freshNew : stale ≠ some s.net.brk := fun same =>
      absurd (custody.staleBelow _ same) (lt_irrefl _)
    rw [some'] at made
    simp only [some']
    refine Custody.free (List.foldlRecOn (motive := fun s' : State =>
      Custody clean (s.net.brk :: held) stale s'.net ∧ s'.net.socks = s.net.socks) _ _ ?_ ?_).1
      freshNew
    · refine ⟨made.touchBuf rfl rfl rfl, ?_⟩
      simp [State.mapHdr, State.mapBuf, allocBuf, calloc_net]
    rintro s' ⟨holds, socks⟩ m member
    have known : m.cl ∈ s'.net.socks := by
      rw [socks]
      exact monitors m (by simpa [State.mapHdr, State.mapBuf, allocBuf, calloc_net] using member)
    refine ⟨monitorDeliver lib holds known List.mem_cons_self freshNew, ?_⟩
    rw [← socks]
    exact monitorDeliver_socks lib s' _ m

theorem kept_of_frame {events : Event → Prop} {keep keepFd : Nat → Prop} {s' : State}
    (frame : Frame events keep keepFd s s') (kept : s.net.Kept ub) : s'.net.Kept ub := by
  obtain ⟨cl, known, member⟩ := kept
  refine ⟨cl, frame.mem_socks known, ?_⟩
  rwa [Sock.posts, Sock.mail, frame.cmdQueue, frame.rx, frame.retmsg]

/-- **`ubus_msg_send`** of a buffer that is held, or kept by a client. -/
theorem send (custody : Custody clean held stale s.net) (known : cl ∈ s.net.socks)
    (monitors : MonitorsKnown s.net) (refers : ub ∈ held ∨ s.net.Kept ub)
    (fresh : stale ≠ some ub) : Custody clean held stale (ubusMsgSend lib cl ub s).net := by
  unfold ubusMsgSend
  split
  · exact custody
  simp only
  have frame : Wire (fun _ => True) (fun _ => False) (fun _ => False) s
      (if (s.buf ub).hdr.type ≠ MsgType.monitor.code then
        ubusdMonitorMessage lib cl ub true s else s) := by
    split
    · exact wire_monitorMessage lib (by simp) fun _ _ _ _ => trivial
    · exact Wire.refl s
  have monitored : Custody clean held stale (if (s.buf ub).hdr.type ≠ MsgType.monitor.code then
      ubusdMonitorMessage lib cl ub true s else s).net := by
    split
    · exact custody.monitorMessage lib monitors
    · exact custody
  refine Custody.transmit lib (s := logSubmit cl ub _) monitored (frame.mem_socks known) ?_ fresh
  rcases refers with member | kept
  · exact monitored.live_of_held member
  · exact monitored.live_of_kept (kept_of_frame frame.toFrame kept)

end Custody

end Ubus
