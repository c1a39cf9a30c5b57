/-
**Clients come and go.**

Between the moment a client has a socket and the moment it has its status message, and again while it
is taken down, the invariant holds for all other clients (`InvBut`).

* `inv_newClient`: an accepted connection, with every way it can fail.
* `inv_aclLoad`: a load of the access lists.
-/

import Ubus.Io

namespace Ubus

open Lib
open scoped List

/-! ### The other clients -/

/-- **Clients other than `cl` are spared**: what they have received and queued is as before, and the
trace has grown by messages of the catalogue. -/
structure Spares (lib : Libubox) (cause : Cause) (cl : Nat) (s s' : State) : Prop where
  trace : ∃ new, s'.trace = new ++ s.trace ∧ ∀ event ∈ new, Emits lib cause event
  socks : ∀ other, other ≠ cl → (other ∈ s'.net.socks ↔ other ∈ s.net.socks)
  rx : ∀ other, other ≠ cl → (s'.net.sock other).rx = (s.net.sock other).rx
  cmdQueue : ∀ other, other ≠ cl → (s'.net.sock other).cmdQueue = (s.net.sock other).cmdQueue
  mail : ∀ other, other ≠ cl → other ∈ s.net.socks → ∀ ub ∈ (s.net.sock other).mail,
    (s'.net.buf ub).hdr = (s.net.buf ub).hdr ∧ (s'.net.buf ub).data = (s.net.buf ub).data
  brk : s.net.brk ≤ s'.net.brk

namespace Spares

variable {lib : Libubox} {cause : Cause} {cl : Nat} {s s' s'' : State}

theorem trans (one : Spares lib cause cl s s') (two : Spares lib cause cl s' s'') :
    Spares lib cause cl s s'' := by
  obtain ⟨new, trace, all⟩ := one.trace
  obtain ⟨new', trace', all'⟩ := two.trace
  refine ⟨⟨new' ++ new, by rw [trace', trace, List.append_assoc], ?_⟩,
    fun other differs => (two.socks other differs).trans (one.socks other differs),
    fun other differs => (two.rx other differs).trans (one.rx other differs),
    fun other differs => (two.cmdQueue other differs).trans (one.cmdQueue other differs), ?_,
    one.brk.trans two.brk⟩
  · intro event member
    rcases List.mem_append.mp member with member | member
    · exact all' event member
    · exact all event member
  · intro other differs known ub member
    have member' : ub ∈ (s'.net.sock other).mail := by
      rw [Sock.mail, one.cmdQueue other differs, one.rx other differs]
      exact member
    obtain ⟨hdr, data⟩ := one.mail other differs known ub member
    obtain ⟨hdr', data'⟩ := two.mail other differs ((one.socks other differs).mpr known) ub member'
    exact ⟨hdr'.trans hdr, data'.trans data⟩

theorem of_eq (trace : s'.trace = s.trace) (socks : s'.net.socks = s.net.socks)
    (sock : ∀ other, other ≠ cl → s'.net.sock other = s.net.sock other)
    (buf : s'.net.buf = s.net.buf) (brk : s'.net.brk = s.net.brk) : Spares lib cause cl s s' :=
  ⟨⟨[], trace, by simp⟩, fun _ _ => by rw [socks], fun other differs => by rw [sock other differs],
    fun other differs => by rw [sock other differs], fun _ _ _ _ _ => by rw [buf]; simp, brk.ge⟩

theorem of_start (spares : Spares lib cause cl s s') {start : State} (trace : s.trace = start.trace)
    (net : s.net = start.net) : Spares lib cause cl start s' := by
  obtain ⟨all, socks, rx, cmdQueue, mail, brk⟩ := spares
  rw [trace] at all
  rw [net] at socks rx cmdQueue mail brk
  exact ⟨all, socks, rx, cmdQueue, mail, brk⟩

theorem mapSock (f : Sock → Sock) : Spares lib cause cl s (s.mapSock cl f) :=
  of_eq rfl rfl (fun _ differs => mapSock_of_ne s differs f) rfl rfl

theorem of_moved (moved : Moved lib s.net.Kept s s') : Spares lib s.cause cl s s' where
  trace := moved.trace
  socks := fun other _ => by rw [moved.socks]; rfl
  rx := fun other _ => moved.rx other
  cmdQueue := fun other _ => moved.cmdQueue other
  mail := fun other _ known ub member =>
    ⟨moved.hdr ub (kept_of_mail known member), moved.data ub (kept_of_mail known member)⟩
  brk := moved.brk

theorem free (ub : Nat) : Spares lib cause cl s (ubusMsgFree ub s) := by
  have frame : Frame (Emits lib cause) s.net.Kept s.net.Kept s (ubusMsgFree ub s) := (wire_free ub s).toFrame
  exact ⟨frame.trace, fun other _ => by rw [frame.socks], fun other _ => frame.rx other,
    fun other _ => frame.cmdQueue other, fun other _ known ub member =>
    ⟨frame.hdr ub (kept_of_mail known member), frame.data ub (kept_of_mail known member)⟩, frame.brk⟩

end Spares

theorem Frame.unmonitored {events : Event → Prop} {keep keepFd : Nat → Prop} {cl : Nat} {s s' : State}
    (frame : Frame events keep keepFd s s') (none : ∀ m ∈ s.net.monitors, m.cl ≠ cl) :
    ∀ m ∈ s'.net.monitors, m.cl ≠ cl := by
  intro m member
  have listed : m.cl ∈ s.net.monitors.map Monitor.cl := frame.monitors ▸ List.mem_map_of_mem member
  obtain ⟨other, inside, same⟩ := List.mem_map.mp listed
  exact same ▸ none other inside

/-! ### A client that is coming or going -/

section Out

variable {lib : Libubox} {cl ub : Nat} {held held' : List Nat} {s : State}

theorem InvBut.leave (inv : Inv lib held s) (cl : Nat) : InvBut (some cl) lib held s :=
  ⟨inv.good, inv.sockets, fun other known _ => inv.connected other known (by simp), inv.monitors,
    inv.posts, fun other known _ => inv.status other known (by simp), inv.custody, inv.trace,
    inv.fault⟩

theorem InvBut.arrive (inv : InvBut (some cl) lib held s) (has : s.reg.HasClient cl)
    (ready : StatusReady s.net cl) : Inv lib held s := by
  refine ⟨inv.good, inv.sockets, fun other known _ => ?_, inv.monitors, inv.posts,
    fun other known _ => ?_, inv.custody, inv.trace, inv.fault⟩
  · by_cases same : other = cl
    · exact same ▸ has
    · exact inv.connected other known fun eq => same (Option.some.inj eq).symm
  · by_cases same : other = cl
    · exact same ▸ ready
    · exact inv.status other known fun eq => same (Option.some.inj eq).symm

theorem InvBut.mapOut {f : Sock → Sock} (inv : InvBut (some cl) lib held s)
    (posts : Posts held' (s.mapSock cl f).net)
    (custody : Custody (Clean lib s.trace) held' none (s.mapSock cl f).net) :
    InvBut (some cl) lib held' (s.mapSock cl f) := by
  refine ⟨inv.good, inv.sockets, inv.connected, ⟨inv.monitors.nodup, inv.monitors.live⟩, posts,
    fun other known notOut => ?_, custody, inv.trace, inv.fault⟩
  have differs : other ≠ cl := fun same => notOut (same ▸ rfl)
  obtain ⟨retmsg, here, ok⟩ := inv.status other known notOut
  exact ⟨retmsg, by rw [mapSock_of_ne s differs]; exact here, ok⟩

theorem InvBut.dropPost {f : Sock → Sock} (inv : InvBut (some cl) lib [] s)
    (known : cl ∈ s.net.socks)
    (queue : (f (s.net.sock cl)).tx.txQueue = (s.net.sock cl).tx.txQueue)
    (less : (s.net.sock cl).posts.Perm (ub :: (f (s.net.sock cl)).posts))
    (mail : ∀ other ∈ (f (s.net.sock cl)).mail, other ∈ (s.net.sock cl).mail)
    (fd : (f (s.net.sock cl)).rx.pendingMsgFd = (s.net.sock cl).rx.pendingMsgFd) :
    InvBut (some cl) lib [] (ubusMsgFree ub (s.mapSock cl f)) := by
  have refs : (s.net.sock cl).refs.Perm (ub :: (f (s.net.sock cl)).refs) := by
    rw [Sock.refs, Sock.refs, queue]
    exact (less.append_left _).trans List.perm_middle
  exact (inv.mapOut (inv.posts.take known less mail) (inv.custody.fetch known refs fd)).free

theorem freeRetmsg_spec (inv : InvBut (some cl) lib [] s) (known : cl ∈ s.net.socks) :
    let t := freeRetmsg cl s
    InvBut (some cl) lib [] t ∧ t.net.sock cl = { s.net.sock cl with retmsg := none } ∧
      (t.reg = s.reg ∧ t.cause = s.cause ∧ t.net.socks = s.net.socks ∧
        t.net.monitors = s.net.monitors) ∧ ∀ cause, Spares lib cause cl s t := by
  unfold freeRetmsg
  rcases here : (s.sock cl).retmsg with _ | retmsg
  · exact ⟨inv, by simp only [← here], ⟨rfl, rfl, rfl, rfl⟩,
      fun _ => Spares.of_eq rfl rfl (fun _ _ => rfl) rfl rfl⟩
  refine ⟨inv.dropPost known rfl ?_ (fun _ => id) rfl, ?_, ?_, fun _ =>
    (Spares.mapSock _).trans (Spares.free retmsg)⟩
  · rw [Sock.posts, show (s.net.sock cl).retmsg = some retmsg from here]
    simpa [Sock.posts, Sock.mail] using List.perm_append_singleton retmsg (s.net.sock cl).mail
  · simp only [ubusMsgFree_net]
    exact mapSock_self ..
  · simp only [ubusMsgFree_net, ubusMsgFree_reg]
    exact ⟨rfl, rfl, rfl, rfl⟩

theorem inv_freeClientId (inv : InvBut (some cl) lib [] s)
    (none : s.reg.HasClient cl → (s.reg.client cl).objects = [])
    (unmonitored : ∀ m ∈ s.net.monitors, m.cl ≠ cl) :
    InvBut (some cl) lib [] (freeClientId cl s) := by
  refine ⟨good_freeClientId inv.good none, fun other has => ?_, fun other known notOut => ?_,
    ⟨inv.monitors.nodup, fun m member => ?_⟩, inv.posts, inv.status, inv.custody, inv.trace,
    inv.fault⟩
  · exact inv.sockets other (AvlTree.has_delete.mp has).1
  · exact AvlTree.has_delete.mpr ⟨inv.connected other known notOut, fun same => notOut (same ▸ rfl)⟩
  · exact AvlTree.has_delete.mpr ⟨inv.monitors.live m member, unmonitored m member⟩

theorem freeSock_spec (inv : InvBut (some cl) lib [] s) (gone : ¬ s.reg.HasClient cl)
    (refs : (s.net.sock cl).refs = []) (noFd : (s.net.sock cl).rx.pendingMsgFd = none) :
    Inv lib [] (freeSock cl s) ∧ cl ∉ (freeSock cl s).net.socks ∧
      ∀ cause, Spares lib cause cl s (freeSock cl s) := by
  have nodup : s.net.socks.Nodup := inv.custody.counted.nodup
  have iff : ∀ other, other ∈ (freeSock cl s).net.socks ↔ other ≠ cl ∧ other ∈ s.net.socks :=
    fun other => nodup.mem_erase_iff
  have old : ∀ other ∈ (freeSock cl s).net.socks, other ∈ s.net.socks := fun other member =>
    ((iff other).mp member).2
  have notOut : ∀ other ∈ (freeSock cl s).net.socks, some cl ≠ some other := fun other member same =>
    ((iff other).mp member).1 (Option.some.inj same).symm
  refine ⟨⟨inv.good, fun other has => ?_, fun other known _ => ?_,
    ⟨inv.monitors.nodup, inv.monitors.live⟩, ⟨?_, ?_, ?_, ?_⟩, fun other known _ => ?_,
    inv.custody.dismiss refs noFd, inv.trace, inv.fault⟩, fun member => ((iff cl).mp member).1 rfl,
    fun cause => ⟨⟨[], rfl, by simp⟩, fun other differs => ?_, fun _ _ => rfl, fun _ _ => rfl,
    fun _ _ _ _ _ => ⟨rfl, rfl⟩, le_rfl⟩⟩
  · exact (iff other).mpr ⟨fun same => gone (same ▸ has), inv.sockets other has⟩
  · exact inv.connected other (old other known) (notOut other known)
  · exact fun other known => inv.posts.nodup other (old other known)
  · exact fun other known other' known' =>
      inv.posts.owner other (old other known) other' (old other' known')
  · simp
  · exact fun other known => inv.posts.plain other (old other known)
  · exact inv.status other (old other known) (notOut other known)
  · exact (iff other).trans (and_iff_right differs)

theorem inv_closePending (inv : InvBut (some cl) lib [] s) (known : cl ∈ s.net.socks) :
    InvBut (some cl) lib [] (closeFd (s.net.sock cl).rx.pendingMsgFd
      (s.mapRx cl fun rx => { rx with pendingMsgFd := none })) := by
  have custody := inv.custody.closePending known (f := fun sock => { sock with
    rx := { sock.rx with pendingMsgFd := none } }) rfl rfl
  have posts : Posts [] (s.mapSock cl fun sock => { sock with
      rx := { sock.rx with pendingMsgFd := none } }).net :=
    inv.posts.mapSock known (inv.posts.nodup cl known) (fun _ => Or.inl) (by simp)
      (inv.posts.plain cl known)
  have status : ∀ other ∈ s.net.socks, some cl ≠ some other → StatusReady (s.mapSock cl fun sock =>
      { sock with rx := { sock.rx with pendingMsgFd := none } }).net other :=
    fun other known' notOut => (inv.status other known' notOut).mapSock (by rfl)
  generalize (s.net.sock cl).rx.pendingMsgFd = fd at custody ⊢
  cases fd <;>
    exact ⟨inv.good, inv.sockets, inv.connected, ⟨inv.monitors.nodup, inv.monitors.live⟩,
      ⟨posts.nodup, posts.owner, posts.free, posts.plain⟩, status, custody, inv.trace, inv.fault⟩

theorem dropPending_eq (cl : Nat) (s : State) :
    let t := closeFd (s.net.sock cl).rx.pendingMsgFd
      (s.mapRx cl fun rx => { rx with pendingMsgFd := none })
    dropPending cl s = match (s.net.sock cl).rx.pendingMsg with
      | none => t
      | some ub => ubusMsgFree ub (t.mapRx cl fun rx => { rx with pendingMsg := none }) := by
  unfold dropPending
  simp only [State.rx]
  rcases pending : (s.net.sock cl).rx.pendingMsg with _ | ub
  · simp only
    congr 1
    simp only [State.mapRx, State.mapSock]
    rw [← pending]
  · simp only
    congr 1
    cases (s.net.sock cl).rx.pendingMsgFd <;> simp [closeFd, State.close, State.mapRx, State.mapSock]

theorem dropPending_spec (inv : InvBut (some cl) lib [] s) (known : cl ∈ s.net.socks) :
    InvBut (some cl) lib [] (dropPending cl s) ∧
      (dropPending cl s).net.sock cl = { s.net.sock cl with
        rx := { (s.net.sock cl).rx with pendingMsgFd := none, pendingMsg := none } } ∧
      (dropPending cl s).reg = s.reg ∧
      ∀ cause, Spares lib cause cl s (dropPending cl s) := by
  have inv' := inv_closePending inv known
  have closed : ∀ cause, Spares lib cause cl s (closeFd (s.net.sock cl).rx.pendingMsgFd
      (s.mapRx cl fun rx => { rx with pendingMsgFd := none })) := by
    intro cause
    have sock : ∀ other, other ≠ cl → (s.mapRx cl fun rx => { rx with
        pendingMsgFd := none }).net.sock other = s.net.sock other := fun other differs =>
      mapSock_of_ne s differs _
    cases (s.net.sock cl).rx.pendingMsgFd <;> exact Spares.of_eq rfl rfl sock rfl rfl
  have known' : cl ∈ (closeFd (s.net.sock cl).rx.pendingMsgFd
      (s.mapRx cl fun rx => { rx with pendingMsgFd := none })).net.socks := by
    rw [Custody.closeFd_socks]
    exact known
  have sock : (closeFd (s.net.sock cl).rx.pendingMsgFd
      (s.mapRx cl fun rx => { rx with pendingMsgFd := none })).net.sock cl =
      { s.net.sock cl with rx := { (s.net.sock cl).rx with pendingMsgFd := none } } := by
    rw [Custody.closeFd_sock]
    exact mapSock_self ..
  have reg : (closeFd (s.net.sock cl).rx.pendingMsgFd
      (s.mapRx cl fun rx => { rx with pendingMsgFd := none })).reg = s.reg := by
    cases (s.net.sock cl).rx.pendingMsgFd <;> rfl
  rw [dropPending_eq]
  generalize closeFd (s.net.sock cl).rx.pendingMsgFd
    (s.mapRx cl fun rx => { rx with pendingMsgFd := none }) = t at inv' closed known' sock reg ⊢
  rcases pending : (s.net.sock cl).rx.pendingMsg with _ | ub
  · refine ⟨inv', ?_, reg, closed⟩
    simp only [sock, ← pending]
  refine ⟨inv'.dropPost (f := fun sock => { sock with rx := { sock.rx with pendingMsg := none } })
    known' rfl ?_ ?_ rfl, ?_, ?_, fun cause => (closed cause).trans
    ((Spares.mapSock _).trans (Spares.free ub))⟩
  · simp only [sock, Sock.posts, Sock.mail, pending, Option.toList_some, Option.toList_none,
      List.append_assoc, List.nil_append, List.singleton_append]
    exact List.perm_middle
  · intro other member
    exact List.mem_append_left _ (by simpa [Sock.mail] using member)
  · simp only [ubusMsgFree_net]
    rw [State.mapRx, mapSock_self, sock]
  · simp only [ubusMsgFree_reg]
    exact reg

end Out

/-! ### Disconnect -/

section Disconnect

variable {lib : Libubox} {cl : Nat} {s s' : State}

theorem foldl_drain {ι : Type} (queue : State → List ι) (body : State → ι → State)
    (holds : State → Prop) (round : ∀ s item rest, holds s → queue s = item :: rest →
      holds (body s item) ∧ queue (body s item) = rest)
    (start : holds s) : holds ((queue s).foldl body s) ∧ queue ((queue s).foldl body s) = [] := by
  generalize items : queue s = list
  induction list generalizing s with
  | nil => exact ⟨start, items⟩
  | cons item rest ih =>
    obtain ⟨next, left⟩ := round s item rest start items
    exact ih next left

/-- A client on its way out, since the state `s`. -/
structure Leaving (lib : Libubox) (cl : Nat) (s s' : State) : Prop where
  inv : InvBut (some cl) lib [] s'
  known : cl ∈ s'.net.socks
  spares : Spares lib (.disconnect cl) cl s s'
  cause : s'.cause = .disconnect cl

theorem Leaving.free {ub : Nat} {f : Sock → Sock} (leaving : Leaving lib cl s s')
    (inv : InvBut (some cl) lib [] (ubusMsgFree ub (s'.mapSock cl f))) :
    Leaving lib cl s (ubusMsgFree ub (s'.mapSock cl f)) ∧
      (ubusMsgFree ub (s'.mapSock cl f)).net.sock cl = f (s'.net.sock cl) := by
  refine ⟨⟨inv, ?_, leaving.spares.trans ((Spares.mapSock f).trans (Spares.free ub)), ?_⟩, ?_⟩
  · simp only [ubusMsgFree_net]
    exact leaving.known
  · simp only [ubusMsgFree_reg]
    exact leaving.cause
  · simp only [ubusMsgFree_net]
    exact mapSock_self ..

theorem Leaving.cmdQueue (leaving : Leaving lib cl s s') :
    let t := (s'.sock cl).cmdQueue.foldl (ubusClientCmdFree cl) s'
    Leaving lib cl s t ∧ (t.net.sock cl).cmdQueue = [] ∧ t.reg = s'.reg := by
  have drained := foldl_drain (fun t => (t.net.sock cl).cmdQueue) (ubusClientCmdFree cl)
    (fun t => Leaving lib cl s t ∧ t.reg = s'.reg) ?_ ⟨leaving, rfl⟩
  · exact ⟨drained.1.1, drained.2, drained.1.2⟩
  intro t cmd rest ⟨old, reg⟩ queue
  obtain ⟨next, sock⟩ := old.free (inv_clientCmdFree old.inv old.known (by rw [queue]; rfl))
  refine ⟨⟨next, (ubusMsgFree_reg ..).1.trans reg⟩, ?_⟩
  show ((ubusClientCmdFree cl t cmd).net.sock cl).cmdQueue = rest
  rw [ubusClientCmdFree, sock, queue]
  rfl

theorem Leaving.monitor (leaving : Leaving lib cl s s') :
    Leaving lib cl s (ubusdMonitorDisconnect cl s') ∧
      ∀ m ∈ (ubusdMonitorDisconnect cl s').net.monitors, m.cl ≠ cl := by
  obtain ⟨monitors, unmonitored⟩ := monitorsOk_disconnect leaving.inv.monitors cl
  refine ⟨⟨?_, leaving.known, leaving.spares.trans (Spares.of_eq rfl rfl (fun _ _ => rfl) rfl rfl),
    leaving.cause⟩, unmonitored⟩
  exact leaving.inv.of_moved (Frame.refl _) leaving.inv.good rfl monitors
    (leaving.inv.custody.congr rfl le_rfl rfl rfl (fun _ => ⟨rfl, rfl, rfl⟩) (fun _ => rfl)
      fun _ => rfl) (by simp)

/-- Of the objects that the registry `reg` has, those of a client are gone, but for `rest`. -/
structure Left (reg : Registry) (cl : Nat) (rest : List Nat) (t : State) : Prop where
  nodup : rest.Nodup
  mine : ∀ obj ∈ rest, reg.HasObject obj ∧ (reg.object obj).client = some cl
  objects : ∀ obj, t.reg.HasObject obj ↔
    reg.HasObject obj ∧ ((reg.object obj).client = some cl → obj ∈ rest)
  client : ∀ obj, (t.reg.object obj).client = (reg.object obj).client
  cause : t.cause = .disconnect cl

theorem Left.freeObject {reg : Registry} {keep : Nat → Prop} {obj : Nat} {rest : List Nat}
    (ready : Ready keep none s) (left : Left reg cl (obj :: rest) s) :
    Does lib keep none s (ubusdFreeObject lib s obj) ∧
      Left reg cl rest (ubusdFreeObject lib s obj) := by
  obtain ⟨has, _⟩ := left.mine obj List.mem_cons_self
  obtain ⟨notIn, nodup⟩ := List.nodup_cons.mp left.nodup
  obtain ⟨does, removed⟩ := does_freeObject lib ready (by simp)
    ((left.objects obj).mpr ⟨has, fun _ => List.mem_cons_self⟩) fun _ => left.cause ▸ .disconnect
  refine ⟨does, nodup, fun other member => left.mine other (List.mem_cons_of_mem _ member),
    fun other => ?_, fun other => (removed.client other).trans (left.client other),
    does.work.cause.trans left.cause⟩
  have before := left.objects other
  rw [Registry.HasObject, removed.objects, AvlTree.has_delete]
  constructor
  · rintro ⟨old, differs⟩
    obtain ⟨old, inside⟩ := before.mp old
    exact ⟨old, fun owner => (List.mem_cons.mp (inside owner)).resolve_left differs⟩
  · rintro ⟨old, inside⟩
    refine ⟨before.mpr ⟨old, fun owner => List.mem_cons_of_mem _ (inside owner)⟩, ?_⟩
    rintro rfl
    exact notIn (inside (left.mine other List.mem_cons_self).2)

theorem Leaving.objects (leaving : Leaving lib cl s s') (has : s'.reg.HasClient cl) :
    let t := (s'.reg.client cl).objects.foldl (ubusdFreeObject lib) s'
    Leaving lib cl s t ∧ Does lib s'.net.Kept none s' t ∧ Left s'.reg cl [] t := by
  have owners := leaving.inv.good.owners
  have start : Left s'.reg cl (s'.reg.client cl).objects s' :=
    ⟨owners.nodup cl has, fun obj => (owners.listed cl obj has).mp, fun obj =>
      ⟨fun old => ⟨old, fun owner => (owners.listed cl obj has).mpr ⟨old, owner⟩⟩, And.left⟩,
      fun _ => rfl, leaving.cause⟩
  obtain ⟨does, left⟩ := Does.foldl (Left s'.reg cl) (ubusdFreeObject lib)
    (s'.reg.client cl).objects leaving.inv.ready (fun _ _ _ ready left => left.freeObject ready) start
  refine ⟨⟨leaving.inv.of_does does, does.work.sends.frame.mem_socks leaving.known,
    leaving.spares.trans ?_, does.work.cause.trans leaving.cause⟩, does, left⟩
  rw [← leaving.cause]
  exact Spares.of_moved does.work.sends.frame.rebase

theorem Leaving.txQueue (leaving : Leaving lib cl s s') :
    let t := (s'.tx cl).txQueue.foldl (ubusMsgListFree cl) s'
    Leaving lib cl s t ∧ t.reg = s'.reg ∧ (∃ tx, t.net.sock cl = { s'.net.sock cl with tx }) ∧
      (t.net.sock cl).tx.txQueue = [] := by
  have drained := foldl_drain (fun t => (t.net.sock cl).tx.txQueue) (ubusMsgListFree cl)
    (fun t => Leaving lib cl s t ∧ t.reg = s'.reg ∧ ∃ tx, t.net.sock cl = { s'.net.sock cl with tx })
    ?_ ⟨leaving, rfl, _, rfl⟩
  · exact ⟨drained.1.1, drained.1.2.1, drained.1.2.2, drained.2⟩
  intro t ub rest ⟨old, reg, tx, same⟩ queue
  obtain ⟨next, sock⟩ := old.free (inv_msgListFree old.inv old.known (by rw [queue]; rfl))
  refine ⟨⟨next, (ubusMsgFree_reg ..).1.trans reg, { tx with txQueue := tx.txQueue.tail }, ?_⟩, ?_⟩
  · rw [ubusMsgListFree, State.mapTx, sock, same]
  · show ((ubusMsgListFree cl t ub).net.sock cl).tx.txQueue = rest
    rw [ubusMsgListFree, State.mapTx, sock]
    exact congrArg List.tail queue

theorem Leaving.protoFree (leaving : Leaving lib cl s s') (has : s'.reg.HasClient cl)
    (unmonitored : ∀ m ∈ s'.net.monitors, m.cl ≠ cl) (noCmd : (s'.net.sock cl).cmdQueue = []) :
    let t := ubusdProtoFreeClient lib cl s'
    Leaving lib cl s t ∧ ¬ t.reg.HasClient cl ∧ (t.net.sock cl).cmdQueue = [] ∧
      (t.net.sock cl).retmsg = none ∧ Left s'.reg cl [] t := by
  obtain ⟨freed, does, left⟩ := leaving.objects has
  unfold ubusdProtoFreeClient
  simp only
  generalize (s'.reg.client cl).objects.foldl (ubusdFreeObject lib) s' = t at freed does left ⊢
  have noObjects : t.reg.HasClient cl → (t.reg.client cl).objects = [] := by
    refine fun has' => List.eq_nil_iff_forall_not_mem.mpr fun obj member => ?_
    obtain ⟨hasObj, owner⟩ := (does.good.owners.listed cl obj has').mp member
    exact List.not_mem_nil (((left.objects obj).mp hasObj).2 (left.client obj ▸ owner))
  obtain ⟨inv, sock, ⟨reg, cause, socks, monitors⟩, spares⟩ :=
    freeRetmsg_spec freed.inv freed.known
  have frame := does.work.sends.frame
  have next : Leaving lib cl s (freeRetmsg cl t) :=
    ⟨inv, socks ▸ freed.known, freed.spares.trans (spares _), cause.trans freed.cause⟩
  have unmonitored' : ∀ m ∈ (freeRetmsg cl t).net.monitors, m.cl ≠ cl := by
    rw [monitors]
    exact frame.unmonitored unmonitored
  refine ⟨⟨inv_freeClientId next.inv (by rwa [reg]) unmonitored', next.known,
    next.spares.trans (Spares.of_eq rfl rfl (fun _ _ => rfl) rfl rfl), next.cause⟩,
    fun known => (AvlTree.has_delete.mp known).2 rfl, ?_, ?_, left.nodup, left.mine, ?_, ?_,
    next.cause⟩
  · show ((freeRetmsg cl t).net.sock cl).cmdQueue = []
    rw [sock]
    exact (frame.cmdQueue cl).trans noCmd
  · show ((freeRetmsg cl t).net.sock cl).retmsg = none
    rw [sock]
  · show ∀ obj, (freeRetmsg cl t).reg.HasObject obj ↔ _
    rw [reg]
    exact left.objects
  · show ∀ obj, ((freeRetmsg cl t).reg.object obj).client = _
    rw [reg]
    exact left.client

/-- **`handle_client_disconnect`**: the client and its objects are gone, and the others are spared. -/
theorem disconnect_spec (inv : Inv lib [] s) (has : s.reg.HasClient cl) :
    let t := handleClientDisconnect lib cl s
    Inv lib [] t ∧ cl ∉ t.net.socks ∧ Spares lib (.disconnect cl) cl s t ∧
      ∀ obj, t.reg.HasObject obj ↔ s.reg.HasObject obj ∧ (s.reg.object obj).client ≠ some cl := by
  have inv' : Inv lib [] { s with cause := .disconnect cl } := inv.congr rfl rfl rfl rfl
  have start : Leaving lib cl s { s with cause := .disconnect cl } :=
    ⟨inv'.leave cl, inv.sockets cl has, Spares.of_eq rfl rfl (fun _ _ => rfl) rfl rfl, rfl⟩
  have reg0 : State.reg { s with cause := .disconnect cl } = s.reg := rfl
  unfold handleClientDisconnect
  simp only
  generalize ({ s with cause := .disconnect cl } : State) = s0 at start reg0 ⊢
  obtain ⟨cmds, noCmd, reg1⟩ := start.cmdQueue
  rw [reg0] at reg1
  generalize (s0.sock cl).cmdQueue.foldl (ubusClientCmdFree cl) s0 = s1 at cmds noCmd reg1 ⊢
  obtain ⟨alone, unmonitored⟩ := cmds.monitor
  have regMonitor : (ubusdMonitorDisconnect cl s1).reg = s.reg := reg1
  obtain ⟨freed, gone, noCmd', noRet, left⟩ :=
    alone.protoFree (by rw [regMonitor]; exact has) unmonitored noCmd
  rw [regMonitor] at left
  generalize ubusdProtoFreeClient lib cl (ubusdMonitorDisconnect cl s1) = s2
    at freed gone noCmd' noRet left ⊢
  obtain ⟨drained, reg3, ⟨tx, sock⟩, noTx⟩ := freed.txQueue
  generalize (s2.tx cl).txQueue.foldl (ubusMsgListFree cl) s2 = s3 at drained reg3 sock noTx ⊢
  obtain ⟨dropped, sock', reg4, spares⟩ := dropPending_spec drained.inv drained.known
  rw [sock] at sock' noTx
  have reg : (dropPending cl s3).reg = s2.reg := reg4.trans reg3
  obtain ⟨done, absent, spares'⟩ := freeSock_spec dropped (by rw [reg]; exact gone)
    (by simpa [Sock.refs, Sock.posts, Sock.mail, sock', noCmd', noRet] using noTx)
    (by rw [sock'])
  refine ⟨done, absent, (drained.spares.trans (spares _)).trans (spares' _), fun obj => ?_⟩
  show (dropPending cl s3).reg.HasObject obj ↔ _
  rw [reg, left.objects]
  simp

end Disconnect

/-! ### Connect -/

section Connect

variable {lib : Libubox} {cl : Nat} {s : State}

theorem Posts.enlist {held : List Nat} {net net' : Net} (posts : Posts held net)
    (buf : net'.buf = net.buf) (socks : ∀ other ∈ net'.socks, net'.sock other = {} ∨
      other ∈ net.socks ∧ net'.sock other = net.sock other) : Posts held net' := by
  have old : ∀ other ∈ net'.socks, ∀ ub ∈ (net'.sock other).posts,
      other ∈ net.socks ∧ net'.sock other = net.sock other := by
    intro other known ub member
    refine (socks other known).resolve_left fun empty => ?_
    rw [empty] at member
    cases member
  refine ⟨fun other known => ?_, ?_, ?_, ?_⟩
  · rcases socks other known with empty | ⟨known, same⟩
    · rw [empty]
      exact List.nodup_nil
    · rw [same]
      exact posts.nodup other known
  · intro first known second known' ub one two
    obtain ⟨known, same⟩ := old first known ub one
    obtain ⟨known', same'⟩ := old second known' ub two
    exact posts.owner first known second known' ub (same ▸ one) (same' ▸ two)
  · rintro ub member ⟨other, known, inside⟩
    obtain ⟨known, same⟩ := old other known ub inside
    exact posts.free ub member ⟨other, known, same ▸ inside⟩
  · intro other known ub member
    obtain ⟨known, same⟩ := old other known ub (List.mem_append_left _ member)
    rw [buf]
    exact posts.plain other known ub (same ▸ member)

theorem admitClient_spec (inv : Inv lib [] s) {id : UInt32} (range : ubusSystemObjectMax ≤ id)
    (absent : ∀ node ∈ s.reg.clients, node.1 ≠ id) (cred : Cred) :
    let t := admitClient id (s.reg.clients.insert id s.reg.brk) cred s
    InvBut (some s.reg.brk) lib [] t ∧
      t.reg.HasClient s.reg.brk ∧ (t.reg.client s.reg.brk).objects = [] ∧
      (∀ m ∈ t.net.monitors, m.cl ≠ s.reg.brk) ∧ t.net.sock s.reg.brk = {} ∧
      ∀ cause, Spares lib cause s.reg.brk s t := by
  intro t
  have old : ∀ cl, s.reg.HasClient cl → cl ≠ s.reg.brk := fun cl has same =>
    absurd (inv.good.clients.lt_of_has (same ▸ has)) (lt_irrefl _)
  have fresh : s.reg.brk ∉ s.net.socks := fun known => old _ ((inv.clients _).mpr known) rfl
  have has : ∀ cl, t.reg.HasClient cl ↔ cl = s.reg.brk ∨ s.reg.HasClient cl :=
    fun cl => AvlTree.has_insert
  have sock : ∀ cl, cl ≠ s.reg.brk → t.net.sock cl = s.net.sock cl := fun cl differs =>
    mapSock_of_ne _ differs _
  refine ⟨⟨good_newClient inv.good range absent cred, fun cl known => ?_, fun cl known notOut => ?_,
    ⟨inv.monitors.nodup, fun m member => (has m.cl).mpr (Or.inr (inv.monitors.live m member))⟩,
    inv.posts.enlist rfl fun cl known => ?_, fun cl known notOut => ?_, inv.custody.enlist fresh rfl rfl, inv.trace,
    inv.fault⟩, (has _).mpr (Or.inl rfl), ?_, fun m member => old _ (inv.monitors.live m member),
    mapSock_self .., fun cause => ⟨⟨[], rfl, by simp⟩, fun other differs => ?_, fun other differs => ?_,
    fun other differs => ?_, fun _ _ _ _ _ => ⟨rfl, rfl⟩, le_rfl⟩⟩
  · rcases (has cl).mp known with rfl | known
    · exact List.mem_cons_self
    · exact List.mem_cons_of_mem _ (inv.sockets cl known)
  · rcases List.mem_cons.mp known with rfl | known
    · exact (has _).mpr (Or.inl rfl)
    · exact (has cl).mpr (Or.inr ((inv.clients cl).mpr known))
  · rcases List.mem_cons.mp known with rfl | known
    · exact Or.inl (mapSock_self ..)
    · have differs : cl ≠ s.reg.brk := fun same => fresh (same ▸ known)
      exact Or.inr ⟨known, sock cl differs⟩
  · rcases List.mem_cons.mp known with rfl | known
    · exact absurd rfl notOut
    · have differs : cl ≠ s.reg.brk := fun same => fresh (same ▸ known)
      obtain ⟨retmsg, here, ok⟩ := inv.status cl known (by simp)
      exact ⟨retmsg, by rw [sock cl differs]; exact here, ok⟩
  · show (Function.update s.reg.client s.reg.brk { id, cred } s.reg.brk).objects = []
    rw [Function.update_self]
  · exact List.mem_cons.trans (or_iff_right differs)
  · rw [sock other differs]
  · rw [sock other differs]

/-- A client on its way in, since the state `s`. -/
structure Coming (lib : Libubox) (held : List Nat) (cl : Nat) (s s' : State) : Prop where
  inv : InvBut (some cl) lib held s'
  known : cl ∈ s'.net.socks
  has : s'.reg.HasClient cl
  spares : Spares lib (.connect cl) cl s s'
  cause : s'.cause = .connect cl
  objects : (s'.reg.client cl).objects = []
  unmonitored : ∀ m ∈ s'.net.monitors, m.cl ≠ cl
  rx : (s'.net.sock cl).rx = {}
  cmdQueue : (s'.net.sock cl).cmdQueue = []

theorem Coming.abandon {s' : State} (coming : Coming lib [] cl s s')
    (noRet : (s'.net.sock cl).retmsg = none) (noTx : (s'.net.sock cl).tx.txQueue = []) :
    Inv lib [] (freeSock cl (freeClientId cl s')) ∧ cl ∉ (freeSock cl (freeClientId cl s')).net.socks ∧
      Spares lib (.connect cl) cl s (freeSock cl (freeClientId cl s')) := by
  have gone : ¬ (freeClientId cl s').reg.HasClient cl := fun known => (AvlTree.has_delete.mp known).2 rfl
  obtain ⟨done, absent, spares⟩ := freeSock_spec
    (inv_freeClientId coming.inv (fun _ => coming.objects) coming.unmonitored) gone
    (by simpa [Sock.refs, Sock.posts, Sock.mail, freeClientId, State.mapReg, coming.rx,
      coming.cmdQueue, noRet] using noTx)
    (by simp [freeClientId, State.mapReg, coming.rx])
  have freed : Spares lib (.connect cl) cl s' (freeClientId cl s') :=
    Spares.of_eq rfl rfl (fun _ _ => rfl) rfl rfl
  exact ⟨done, absent, coming.spares.trans (freed.trans (spares _))⟩

theorem Coming.of_sends {held : List Nat} {s' t : State} (coming : Coming lib [] cl s s')
    (frame : Frame (Emits lib s'.cause) s'.net.Kept s'.net.Kept s' t)
    (custody : Custody (Clean lib s'.trace) held none t.net) (free : ∀ ub ∈ held, ¬ s'.net.Kept ub) :
    Coming lib held cl s t where
  inv := coming.inv.of_sends frame custody free
  known := frame.mem_socks coming.known
  has := by
    rw [frame.reg]
    exact coming.has
  spares := by
    refine coming.spares.trans ?_
    rw [← coming.cause]
    exact Spares.of_moved (Moved.of_frame frame)
  cause := frame.cause.trans coming.cause
  objects := by
    rw [frame.reg]
    exact coming.objects
  unmonitored := frame.unmonitored coming.unmonitored
  rx := (frame.rx cl).trans coming.rx
  cmdQueue := (frame.cmdQueue cl).trans coming.cmdQueue

theorem ubusMsgNew_sock (data : Payload) (shared : Bool) (s : State) :
    (ubusMsgNew data shared s).2.net.sock = s.net.sock := by
  rcases ubusMsgNew_cases data shared s with failed | made
  · rw [failed, calloc_net]
  · rw [made]
    simp [allocBuf, State.mapBuf, calloc_net]

theorem Coming.addRetmsg {retmsg : Nat} {s' : State} (coming : Coming lib [retmsg] cl s s')
    (noRet : (s'.net.sock cl).retmsg = none) :
    Coming lib [] cl s (s'.mapSock cl fun sock => { sock with retmsg := some retmsg }) := by
  have posts : (({ s'.net.sock cl with retmsg := some retmsg } : Sock)).posts.Perm
      (retmsg :: (s'.net.sock cl).posts) := by
    rw [Sock.posts, Sock.posts, noRet, Option.toList_none, List.append_nil]
    exact List.perm_append_singleton retmsg _
  refine ⟨coming.inv.mapOut (coming.inv.posts.add coming.known posts
    (coming.inv.posts.plain cl coming.known)) (coming.inv.custody.stow coming.known ?_ rfl),
    coming.known, coming.has, coming.spares.trans (Spares.mapSock _), coming.cause, coming.objects,
    coming.unmonitored, ?_, ?_⟩
  · rw [Sock.refs, Sock.refs]
    exact (posts.append_left _).trans List.perm_middle
  · rw [mapSock_self]
    exact coming.rx
  · rw [mapSock_self]
    exact coming.cmdQueue

theorem Coming.initRetmsg {s' t : State} (coming : Coming lib [] cl s s')
    (noRet : (s'.net.sock cl).retmsg = none) {ok : Bool}
    (result : ubusdProtoInitRetmsg cl s' = (ok, t)) :
    Coming lib [] cl s t ∧ (t.net.sock cl).tx = (s'.net.sock cl).tx ∧
      (ok = true → StatusReady t.net cl) ∧ (ok = false → (t.net.sock cl).retmsg = none) := by
  have socks := ubusMsgNew_sock (.built [.int32 .status 0]) true s'
  unfold ubusdProtoInitRetmsg at result
  rcases allocated : ubusMsgNew (.built [.int32 .status 0]) true s' with ⟨_ | retmsg, u⟩
  · rw [allocated] at result socks
    cases result
    have sends : Sends (Emits lib s'.cause) s'.net.Kept s' t := sends_new_none allocated
    exact ⟨coming.of_sends sends.frame (sends.custody coming.inv.custody) (by simp), by rw [socks],
      by simp, fun _ => (sends.frame.retmsg cl).trans noRet⟩
  · rw [allocated] at result socks
    cases result
    have made : Made (Emits lib s'.cause) s'.net.Kept s' u retmsg :=
      Made.new coming.inv.kept_below allocated
    have filled := made.fill coming.inv.kept_below (f := fun buf => { buf with
      hdr := { buf.hdr with type := MsgType.status.code } }) rfl rfl rfl
    have buf := ubusMsgNew_buf allocated
    have notKept : ¬ s'.net.Kept retmsg := fun kept =>
      absurd (coming.inv.kept_below retmsg kept) (not_lt.mpr made.fresh)
    have next := coming.of_sends filled.frame (filled.custody coming.inv.custody)
      (by simpa using notKept)
    have hdr : ((u.mapBuf retmsg fun buf => { buf with
        hdr := { buf.hdr with type := MsgType.status.code } }).net.buf retmsg).hdr =
        { type := MsgType.status.code } := by
      simp [State.mapBuf, buf]
    refine ⟨next.addRetmsg ((filled.frame.retmsg cl).trans noRet), ?_, fun _ =>
      ⟨retmsg, by rw [mapSock_self], congrArg Msghdr.type hdr, congrArg Msghdr.version hdr⟩, by simp⟩
    rw [mapSock_self]
    exact congrArg (fun sock => (sock cl).tx) socks

theorem Coming.freeRetmsg {s' : State} (coming : Coming lib [] cl s s') :
    Coming lib [] cl s (freeRetmsg cl s') ∧ ((Ubus.freeRetmsg cl s').net.sock cl).retmsg = none ∧
      ((Ubus.freeRetmsg cl s').net.sock cl).tx = (s'.net.sock cl).tx := by
  obtain ⟨inv, sock, ⟨reg, cause, socks, monitors⟩, spares⟩ :=
    freeRetmsg_spec coming.inv coming.known
  exact ⟨⟨inv, socks ▸ coming.known, reg ▸ coming.has, coming.spares.trans (spares _),
    cause.trans coming.cause, reg ▸ coming.objects, monitors ▸ coming.unmonitored,
    by rw [sock]; exact coming.rx, by rw [sock]; exact coming.cmdQueue⟩, by rw [sock], by rw [sock]⟩

theorem sends_hello {held : List Nat} {s t : State} {ok : Bool} (inv : Inv lib held s)
    (has : s.reg.HasClient cl) (cause : s.cause = .connect cl)
    (result : ubusdSendHello lib cl s = (ok, t)) :
    Sends (Emits lib s.cause) s.net.Kept s t ∧ (ok = false → t.net.sock = s.net.sock) := by
  have socks := ubusMsgNew_sock (.built []) true s
  unfold ubusdSendHello at result
  rcases allocated : ubusMsgNew (.built []) true s with ⟨_ | ub, u⟩
  · rw [allocated] at result socks
    cases result
    exact ⟨sends_new_none allocated, fun _ => socks⟩
  · rw [allocated] at result
    cases result
    have made : Made (Emits lib s.cause) s.net.Kept s u ub := Made.new inv.kept_below allocated
    have filled := made.fill inv.kept_below (f := fun buf => { buf with
      hdr := { type := MsgType.hello.code, peer := (u.reg.client cl).id } }) rfl rfl rfl
    refine ⟨(Made.sendTo lib filled inv.kept_below inv.known ⟨cl, rfl, has⟩
      (admitsMonitor_emits lib s.moment) fun dest same => ⟨rfl, ?_⟩).free, by simp⟩
    cases same
    rw [cause]
    have hello : Emission lib s.reg (.connect cl) cl
        { type := MsgType.hello.code, peer := (s.reg.client cl).id } (.built []) := .hello
    simpa [State.buf, State.mapBuf, ubusMsgNew_buf allocated, made.frame.reg, State.moment] using
      hello

theorem greetClient_spec {s' : State} (coming : Coming lib [] cl s s')
    (noRet : (s'.net.sock cl).retmsg = none) (noTx : (s'.net.sock cl).tx.txQueue = []) :
    let t := greetClient lib cl s'
    Inv lib [] t ∧ Spares lib (.connect cl) cl s t ∧
      (cl ∈ t.net.socks → (t.net.sock cl).rx = {} ∧ (t.net.sock cl).cmdQueue = []) := by
  unfold greetClient
  rcases init : ubusdProtoInitRetmsg cl s' with ⟨ok, u⟩
  obtain ⟨coming1, tx, ready, noRet'⟩ := coming.initRetmsg noRet init
  rw [← tx] at noTx
  cases ok with
  | false =>
    obtain ⟨inv, absent, spares⟩ := coming1.abandon (noRet' rfl) noTx
    exact ⟨inv, spares, fun known => absurd known absent⟩
  | true =>
    have inv1 := coming1.inv.arrive coming1.has (ready rfl)
    simp only
    rcases hello : ubusdSendHello lib cl u with ⟨ok, v⟩
    obtain ⟨sends, same⟩ := sends_hello inv1 coming1.has coming1.cause hello
    have coming2 := coming1.of_sends sends.frame (sends.custody coming1.inv.custody) (by simp)
    cases ok with
    | false =>
      obtain ⟨coming3, noRet3, tx3⟩ := coming2.freeRetmsg
      rw [← same rfl, ← tx3] at noTx
      obtain ⟨inv, absent, spares⟩ := coming3.abandon noRet3 noTx
      exact ⟨inv, spares, fun known => absurd known absent⟩
    | true =>
      have inv2 := inv1.of_sends sends.frame (sends.custody inv1.custody) (by simp)
      have sock := mapSock_self v cl fun sock => { sock with
        tx := { sock.tx with writeInterest := false } }
      exact ⟨inv_mapTx inv2 coming2.known rfl, coming2.spares.trans (Spares.mapSock _), fun _ =>
        ⟨(congrArg Sock.rx sock).trans coming2.rx, (congrArg Sock.cmdQueue sock).trans coming2.cmdQueue⟩⟩

/-- **A connection is accepted**, or given up. -/
theorem newClient_spec (inv : Inv lib [] s) (cred : Option Cred) :
    let s' := ubusdProtoNewClient lib cred { s with cause := .connect s.reg.brk }
    Inv lib [] s' ∧ Spares lib (.connect s.reg.brk) s.reg.brk s s' ∧
      (s.reg.brk ∈ s'.net.socks → (s'.net.sock s.reg.brk).rx = {} ∧
        (s'.net.sock s.reg.brk).cmdQueue = []) := by
  have fresh : s.reg.brk ∉ s.net.socks := fun known =>
    absurd (inv.good.clients.lt_of_has ((inv.clients _).mpr known)) (lt_irrefl _)
  cases cred with
  | none =>
    exact ⟨inv.congr rfl rfl rfl rfl, Spares.of_eq rfl rfl (fun _ _ => rfl) rfl rfl,
      fun known => absurd known fresh⟩
  | some cred =>
    unfold ubusdProtoNewClient
    simp only
    rcases alloc : ubusAllocId s.reg.clients s.reg.brk s.rnd with ⟨_ | ⟨id, clients⟩, rnd⟩
    · exact ⟨inv.congr rfl rfl rfl rfl, Spares.of_eq rfl rfl (fun _ _ => rfl) rfl rfl,
        fun known => absurd known fresh⟩
    obtain ⟨range, rfl, absent⟩ := ubusAllocId_some alloc
    have inv' : Inv lib [] { s with cause := .connect s.reg.brk, rnd } := inv.congr rfl rfl rfl rfl
    obtain ⟨inv1, has, objects, unmonitored, empty, spares⟩ :=
      admitClient_spec inv' range absent cred
    refine greetClient_spec ⟨inv1, List.mem_cons_self, has, ?_, rfl, objects, unmonitored,
      by rw [empty], by rw [empty]⟩ (by rw [empty]) (by rw [empty])
    exact (spares _).of_start rfl rfl

end Connect

/-! ### Loading access lists -/

section Load

variable {lib : Libubox} {s : State}

/-- **`ubusd_acl_load`** replaces the entries and sends one event. -/
theorem aclLoad_moved (inv : Inv lib [] s) (host : Host) (dir : Directory) (fault : Bool) :
    let t := { s with cause := .aclLoad }
    Does lib t.net.Kept none t (aclLoadAndAnnounce lib host dir fault s) := by
  intro t
  unfold aclLoadAndAnnounce
  simp only
  split
  · exact Does.refl inv.good
  have loaded : Does lib t.net.Kept none t (t.mapReg fun reg => { reg with
      acl := ubusdAclLoad lib host dir fault reg.acl }) :=
    Does.of_reg (good_acl inv.good (consistent_ubusdAclLoad lib host dir fault inv.good.acl)) rfl rfl
  have ready := loaded.ready (Ready.mk inv.good ⟨inv.known.clients, inv.known.monitors⟩ inv.kept_below)
  exact loaded.trans (Does.of_sends loaded.good
    (sends_event lib ready.bound (ready.eventOk lib .acl)))

end Load

end Ubus
