/-
**The invariant of the daemon.**

`Inv lib s` is what holds between any two system calls of the daemon: the registry is intact, the
connected clients are those with a socket, monitors are clients, every client has its status message,
buffers are counted, the descriptors are in custody as long as no message leaked one, and everything
in the trace is in the catalogue.

* `Sock.posts` — the messages a client keeps: pending, queued, and its status message. No buffer is
  kept twice, and none of them carries a descriptor.
* `Inv.of_handled`: what a handler does keeps the invariant.
-/

import Ubus.Handlers

namespace Ubus

open Lib

variable {cl ub other : Nat} {f : Sock → Sock} {held' : List Nat} {net : Net} {keep : Nat → Prop}

/-- **No buffer is kept twice**, and what the running code holds is not kept. -/
structure Posts (held : List Nat) (net : Net) : Prop where
  nodup : ∀ cl ∈ net.socks, (net.sock cl).posts.Nodup
  owner : ∀ cl ∈ net.socks, ∀ cl' ∈ net.socks, ∀ ub,
    ub ∈ (net.sock cl).posts → ub ∈ (net.sock cl').posts → cl = cl'
  free : ∀ ub ∈ held, ¬ net.Kept ub
  plain : ∀ cl ∈ net.socks, ∀ ub ∈ (net.sock cl).mail, (net.buf ub).fd = none

/-- The status message of a client is there, and is one. -/
def StatusReady (net : Net) (cl : Nat) : Prop :=
  ∃ retmsg, (net.sock cl).retmsg = some retmsg ∧
    (net.buf retmsg).hdr.type = MsgType.status.code ∧ (net.buf retmsg).hdr.version = 0

/-- A message whose handler copies a descriptor and leaves the original. -/
def Leaks (lib : Libubox) : Event → Prop
  | .accept _ _ _ hdr data fd => hdr.type = MsgType.invoke.code ∧ fd ≠ none ∧ AclQuery lib data
  | _ => False

instance (lib : Libubox) (event : Event) : Decidable (Leaks lib event) :=
  match event with
  | .accept .. => inferInstanceAs (Decidable (_ ∧ _ ∧ _))
  | .submit .. => inferInstanceAs (Decidable False)
  | .sendObj .. => inferInstanceAs (Decidable False)

/-- No such message was accepted. -/
def Clean (lib : Libubox) (trace : List Event) : Prop := ∀ event ∈ trace, ¬ Leaks lib event

instance (lib : Libubox) (trace : List Event) : Decidable (Clean lib trace) :=
  inferInstanceAs (Decidable (∀ event ∈ trace, _))

/-- The entry of a trace is in the catalogue. -/
def Catalogued (lib : Libubox) : Event → Prop
  | .accept .. => True
  | .submit moment dest hdr data => Emits lib moment.cause (.submit moment dest hdr data)
  | .sendObj moment cl ub obj => Emits lib moment.cause (.sendObj moment cl ub obj)

/-- What holds while the daemon holds the buffers of `held` and the client `out` comes or goes. -/
structure InvBut (out : Option Nat) (lib : Libubox) (held : List Nat) (s : State) : Prop where
  good : s.reg.Ok
  sockets : ∀ cl, s.reg.HasClient cl → cl ∈ s.net.socks
  connected : ∀ cl ∈ s.net.socks, out ≠ some cl → s.reg.HasClient cl
  monitors : MonitorsOk s
  posts : Posts held s.net
  status : ∀ cl ∈ s.net.socks, out ≠ some cl → StatusReady s.net cl
  custody : Custody (Clean lib s.trace) held none s.net
  trace : ∀ event ∈ s.trace, Catalogued lib event
  fault : s.fault = false

/-- **The invariant of the daemon.** -/
abbrev Inv (lib : Libubox) (held : List Nat) (s : State) : Prop := InvBut none lib held s

section

variable {out : Option Nat} {lib : Libubox} {held : List Nat} {s s' : State}

theorem Inv.clients (inv : Inv lib held s) (cl : Nat) : s.reg.HasClient cl ↔ cl ∈ s.net.socks :=
  ⟨inv.sockets cl, fun known => inv.connected cl known (by simp)⟩

theorem InvBut.known (inv : InvBut out lib held s) : Known s :=
  ⟨inv.sockets, fun m member => inv.sockets m.cl (inv.monitors.live m member)⟩

theorem InvBut.kept_below (inv : InvBut out lib held s) : ∀ ub, s.net.Kept ub → ub < s.net.brk :=
  fun ub kept => inv.custody.below ub (inv.custody.live_of_kept kept)

theorem InvBut.ready (inv : InvBut out lib held s) : Ready s.net.Kept none s :=
  ⟨inv.good, inv.known, inv.kept_below⟩

theorem Emits.catalogued {cause : Cause} {event : Event} (emits : Emits lib cause event) :
    Catalogued lib event ∧ ¬ Leaks lib event := by
  cases event with
  | accept => exact emits.elim
  | submit moment dest hdr data =>
    refine ⟨⟨rfl, ?_⟩, id⟩
    rw [emits.1]
    exact emits.2
  | sendObj moment cl ub obj =>
    refine ⟨⟨rfl, ?_, emits.2.2⟩, id⟩
    rw [emits.1]
    exact emits.2.1

theorem Clean.of_append {new old : List Event} (clean : Clean lib (new ++ old)) : Clean lib old :=
  fun event member => clean event (List.mem_append_right _ member)

theorem kept_of_mail (known : cl ∈ net.socks) (member : ub ∈ (net.sock cl).mail) : net.Kept ub :=
  ⟨cl, known, List.mem_append_left _ member⟩

theorem kept_of_retmsg {retmsg : Nat} (known : cl ∈ net.socks)
    (here : (net.sock cl).retmsg = some retmsg) : net.Kept retmsg :=
  ⟨cl, known, by simp [Sock.posts, here]⟩

theorem kept_iff {net' : Net} (socks : net'.socks = net.socks)
    (posts : ∀ cl, (net'.sock cl).posts = (net.sock cl).posts) (ub : Nat) :
    net'.Kept ub ↔ net.Kept ub := by
  simp only [Net.Kept, socks, posts]

theorem Moved.posts (moved : Moved lib keep s s') (cl : Nat) :
    (s'.net.sock cl).posts = (s.net.sock cl).posts := by
  rw [Sock.posts, Sock.mail, moved.cmdQueue, moved.rx, moved.retmsg]
  rfl

theorem Moved.kept_iff (moved : Moved lib keep s s') (ub : Nat) : s'.net.Kept ub ↔ s.net.Kept ub :=
  Ubus.kept_iff moved.socks moved.posts ub

/-- **What is submitted keeps the invariant**, up to custody: headers of status messages and
descriptors of other kept messages must not change. -/
theorem InvBut.of_frame {keepFd : Nat → Prop} (inv : InvBut out lib held s)
    (frame : Frame (Emits lib s.cause) keep keepFd (s.rebase s') s') (good : s'.reg.Ok)
    (clients : s'.reg.clients = s.reg.clients) (monitors : MonitorsOk s')
    (headers : ∀ cl ∈ s.net.socks, ∀ ub, (s.net.sock cl).retmsg = some ub → keep ub)
    (mail : ∀ cl ∈ s.net.socks, ∀ ub ∈ (s.net.sock cl).mail, keepFd ub)
    (custody : Custody (Clean lib s.trace) held' none s'.net)
    (free : ∀ ub ∈ held', ¬ s.net.Kept ub) : InvBut out lib held' s' := by
  have mails : ∀ cl, (s'.net.sock cl).mail = (s.net.sock cl).mail := fun cl => by
    rw [Sock.mail, frame.cmdQueue, frame.rx]
    rfl
  have posts : ∀ cl, (s'.net.sock cl).posts = (s.net.sock cl).posts := fun cl => by
    rw [Sock.posts, mails, frame.retmsg]
    rfl
  have socks : s'.net.socks = s.net.socks := frame.socks
  have kept := kept_iff socks posts
  obtain ⟨new, trace, all⟩ := frame.trace
  refine ⟨good, ?_, ?_, monitors, ⟨?_, ?_, ?_, ?_⟩, ?_, ?_, ?_, frame.fault.trans inv.fault⟩
  · intro cl
    rw [Registry.HasClient, clients, socks]
    exact inv.sockets cl
  · intro cl
    rw [Registry.HasClient, clients, socks]
    exact inv.connected cl
  · intro cl known
    rw [posts]
    exact inv.posts.nodup cl (socks ▸ known)
  · intro cl known cl' known' ub
    rw [posts, posts]
    exact inv.posts.owner cl (socks ▸ known) cl' (socks ▸ known') ub
  · intro ub member
    rw [kept]
    exact free ub member
  · intro cl known ub member
    rw [mails] at member
    rw [frame.fd ub (mail cl (socks ▸ known) ub member)]
    exact inv.posts.plain cl (socks ▸ known) ub member
  · intro cl known notOut
    have known' : cl ∈ s.net.socks := socks ▸ known
    obtain ⟨retmsg, here, type, version⟩ := inv.status cl known' notOut
    have same := frame.hdr retmsg (headers cl known' retmsg here)
    refine ⟨retmsg, (frame.retmsg cl).trans here, ?_, ?_⟩
    · rw [same]
      exact type
    · rw [same]
      exact version
  · rw [trace]
    exact custody.mono Clean.of_append
  · rw [trace]
    intro event member
    rcases List.mem_append.mp member with member | member
    · exact (all event member).catalogued.1
    · exact inv.trace event member

theorem InvBut.of_moved (inv : InvBut out lib held s) (moved : Moved lib s.net.Kept s s')
    (good : s'.reg.Ok) (clients : s'.reg.clients = s.reg.clients) (monitors : MonitorsOk s')
    (custody : Custody (Clean lib s.trace) held' none s'.net)
    (free : ∀ ub ∈ held', ¬ s.net.Kept ub) : InvBut out lib held' s' :=
  inv.of_frame moved good clients monitors (fun _ known _ here => kept_of_retmsg known here)
    (fun _ known _ member => kept_of_mail known member) custody free

theorem InvBut.of_handled {leak : Prop} (inv : InvBut out lib (ub :: held) s)
    (handled : Handled lib s.net.Kept leak ub s s') (safe : Clean lib s.trace → ¬ leak) :
    InvBut out lib (ub :: held) s' :=
  inv.of_moved handled.frame handled.good handled.clients (handled.monitors inv.monitors)
    (handled.custody safe inv.custody) inv.posts.free

theorem InvBut.of_does (inv : InvBut out lib held s) (does : Does lib s.net.Kept none s s') :
    InvBut out lib held s' :=
  inv.of_moved does.work.sends.frame.rebase does.good does.work.clients
    (inv.monitors.congr does.work.sends.frame.monitors does.work.clients)
    (does.work.sends.custody inv.custody) inv.posts.free

theorem InvBut.of_sends (inv : InvBut out lib held s)
    (frame : Frame (Emits lib s.cause) s.net.Kept s.net.Kept s s')
    (custody : Custody (Clean lib s.trace) held' none s'.net)
    (free : ∀ ub ∈ held', ¬ s.net.Kept ub) : InvBut out lib held' s' :=
  inv.of_moved (Moved.of_frame frame) (frame.reg.symm ▸ inv.good) (by rw [frame.reg])
    (inv.monitors.congr frame.monitors (by rw [frame.reg])) custody free

theorem InvBut.free (inv : InvBut out lib (ub :: held) s) :
    InvBut out lib held (ubusMsgFree ub s) :=
  inv.of_sends (wire_free ub s).toFrame (inv.custody.free (by simp))
    fun other member => inv.posts.free other (List.mem_cons_of_mem _ member)

theorem InvBut.congr (inv : InvBut out lib held s) (reg : s'.reg = s.reg) (net : s'.net = s.net)
    (trace : s'.trace = s.trace) (fault : s'.fault = s.fault) : InvBut out lib held s' := by
  obtain ⟨good, sockets, connected, monitors, posts, status, custody, all, ok⟩ := inv
  refine ⟨?_, ?_, ?_, ⟨?_, ?_⟩, ?_, ?_, ?_, ?_, fault.trans ok⟩
  · rwa [reg]
  · rwa [reg, net]
  · rwa [reg, net]
  · rw [net]
    exact monitors.nodup
  · rw [net, reg]
    exact monitors.live
  · rwa [net]
  · rwa [net]
  · rwa [net, trace]
  · rwa [trace]

theorem InvBut.mapBuf {f : MsgBuf → MsgBuf} (inv : InvBut out lib held s)
    (live : (f (s.net.buf ub)).live = (s.net.buf ub).live)
    (refcount : (f (s.net.buf ub)).refcount = (s.net.buf ub).refcount)
    (fd : (f (s.net.buf ub)).fd = (s.net.buf ub).fd)
    (type : s.net.Kept ub → (f (s.net.buf ub)).hdr.type = (s.net.buf ub).hdr.type)
    (version : s.net.Kept ub → (f (s.net.buf ub)).hdr.version = (s.net.buf ub).hdr.version) :
    InvBut out lib held (s.mapBuf ub f) := by
  have fds : ∀ other, ((s.mapBuf ub f).net.buf other).fd = (s.net.buf other).fd := fun other =>
    update_keeps MsgBuf.fd s.net.buf fd other
  have hdr : ∀ other, s.net.Kept other →
      ((s.mapBuf ub f).net.buf other).hdr.type = (s.net.buf other).hdr.type ∧
      ((s.mapBuf ub f).net.buf other).hdr.version = (s.net.buf other).hdr.version := by
    intro other kept
    simp only [State.mapBuf, Function.update_apply]
    split
    · rename_i same
      subst same
      exact ⟨type kept, version kept⟩
    · exact ⟨rfl, rfl⟩
  refine ⟨inv.good, inv.sockets, inv.connected, ⟨inv.monitors.nodup, inv.monitors.live⟩,
    ⟨inv.posts.nodup, inv.posts.owner, inv.posts.free, fun cl known other member => ?_⟩, ?_,
    inv.custody.touchBuf live refcount fd, inv.trace, inv.fault⟩
  · rw [fds]
    exact inv.posts.plain cl known other member
  intro cl known notOut
  obtain ⟨retmsg, here, isStatus, isZero⟩ := inv.status cl known notOut
  have kept := kept_of_retmsg known here
  exact ⟨retmsg, here, (hdr retmsg kept).1.trans isStatus, (hdr retmsg kept).2.trans isZero⟩

/-! ### One client changes what it keeps -/

theorem mapSock_self (s : State) (cl : Nat) (f : Sock → Sock) :
    (s.mapSock cl f).net.sock cl = f (s.net.sock cl) := Function.update_self ..

theorem mapSock_of_ne (s : State) (differs : other ≠ cl) (f : Sock → Sock) :
    (s.mapSock cl f).net.sock other = s.net.sock other := Function.update_of_ne differs ..

theorem Posts.mapSock (posts : Posts held s.net) (known : cl ∈ s.net.socks)
    (nodup : (f (s.net.sock cl)).posts.Nodup)
    (source : ∀ ub ∈ (f (s.net.sock cl)).posts, ub ∈ (s.net.sock cl).posts ∨ ¬ s.net.Kept ub)
    (free : ∀ ub ∈ held', ub ∉ (f (s.net.sock cl)).posts ∧ (s.net.Kept ub → ub ∈ (s.net.sock cl).posts))
    (plain : ∀ ub ∈ (f (s.net.sock cl)).mail, (s.net.buf ub).fd = none) :
    Posts held' (s.mapSock cl f).net := by
  have unique : ∀ other ∈ s.net.socks, other ≠ cl → ∀ ub ∈ (s.net.sock other).posts,
      ub ∉ (s.net.sock cl).posts := fun other known' differs ub member here =>
    differs (posts.owner other known' cl known ub member here)
  have split : ∀ other ∈ s.net.socks, ∀ ub ∈ ((s.mapSock cl f).net.sock other).posts,
      (other = cl ∧ ub ∈ (f (s.net.sock cl)).posts) ∨
        (other ≠ cl ∧ ub ∈ (s.net.sock other).posts) := by
    intro other _ ub member
    by_cases same : other = cl
    · subst same
      rw [mapSock_self] at member
      exact Or.inl ⟨rfl, member⟩
    · rw [mapSock_of_ne s same] at member
      exact Or.inr ⟨same, member⟩
  refine ⟨?_, ?_, ?_, ?_⟩
  · intro other known'
    by_cases same : other = cl
    · subst same
      rw [mapSock_self]
      exact nodup
    · rw [mapSock_of_ne s same]
      exact posts.nodup other known'
  · intro first known' second known'' ub one two
    rcases split first known' ub one with ⟨rfl, inF⟩ | ⟨differs, old⟩ <;>
      rcases split second known'' ub two with ⟨rfl, inF'⟩ | ⟨differs', old'⟩
    · rfl
    · rcases source ub inF with here | notKept
      · exact absurd here (unique second known'' differs' ub old')
      · exact absurd ⟨second, known'', old'⟩ notKept
    · rcases source ub inF' with here | notKept
      · exact absurd here (unique first known' differs ub old)
      · exact absurd ⟨first, known', old⟩ notKept
    · exact posts.owner first known' second known'' ub old old'
  · rintro ub member ⟨other, known', inside⟩
    obtain ⟨notIn, only⟩ := free ub member
    rcases split other known' ub inside with ⟨rfl, inF⟩ | ⟨differs, old⟩
    · exact notIn inF
    · exact unique other known' differs ub old (only ⟨other, known', old⟩)
  · intro other known' ub member
    by_cases same : other = cl
    · subst same
      rw [mapSock_self] at member
      exact plain ub member
    · rw [mapSock_of_ne s same] at member
      exact posts.plain other known' ub member

theorem StatusReady.mapSock (ready : StatusReady s.net other)
    (retmsg : (f (s.net.sock cl)).retmsg = (s.net.sock cl).retmsg) :
    StatusReady (s.mapSock cl f).net other := by
  obtain ⟨status, here, ok⟩ := ready
  refine ⟨status, ?_, ok⟩
  by_cases same : other = cl
  · subst same
    rw [mapSock_self, retmsg]
    exact here
  · rw [mapSock_of_ne s same]
    exact here

theorem InvBut.mapSock (inv : InvBut out lib held s)
    (retmsg : (f (s.net.sock cl)).retmsg = (s.net.sock cl).retmsg)
    (posts : Posts held' (s.mapSock cl f).net)
    (custody : Custody (Clean lib s.trace) held' none (s.mapSock cl f).net) :
    InvBut out lib held' (s.mapSock cl f) :=
  ⟨inv.good, inv.sockets, inv.connected, ⟨inv.monitors.nodup, inv.monitors.live⟩, posts,
    fun other known notOut => (inv.status other known notOut).mapSock retmsg, custody, inv.trace,
    inv.fault⟩

theorem InvBut.touchSock (inv : InvBut out lib held s) (known : cl ∈ s.net.socks)
    (refs : (f (s.net.sock cl)).refs = (s.net.sock cl).refs)
    (mail : (f (s.net.sock cl)).mail = (s.net.sock cl).mail)
    (retmsg : (f (s.net.sock cl)).retmsg = (s.net.sock cl).retmsg)
    (fd : (f (s.net.sock cl)).rx.pendingMsgFd = (s.net.sock cl).rx.pendingMsgFd) :
    InvBut out lib held (s.mapSock cl f) := by
  have posts : (f (s.net.sock cl)).posts = (s.net.sock cl).posts := by
    rw [Sock.posts, mail, retmsg, Sock.posts]
  refine inv.mapSock retmsg (inv.posts.mapSock known ?_ ?_ ?_ ?_) (inv.custody.touch refs fd)
  · rw [posts]
    exact inv.posts.nodup cl known
  · rw [posts]
    exact fun ub member => Or.inl member
  · intro ub member
    have notKept := inv.posts.free ub member
    rw [posts]
    exact ⟨fun inside => notKept ⟨cl, known, inside⟩, fun kept => absurd kept notKept⟩
  · rw [mail]
    exact inv.posts.plain cl known

theorem Posts.add (posts : Posts [ub] s.net) (known : cl ∈ s.net.socks)
    (more : (f (s.net.sock cl)).posts.Perm (ub :: (s.net.sock cl).posts))
    (plain : ∀ other ∈ (f (s.net.sock cl)).mail, (s.net.buf other).fd = none) :
    Posts [] (s.mapSock cl f).net := by
  have notKept := posts.free ub List.mem_cons_self
  refine posts.mapSock known ?_ ?_ (fun _ member => absurd member List.not_mem_nil) plain
  · rw [more.nodup_iff, List.nodup_cons]
    exact ⟨fun member => notKept ⟨cl, known, member⟩, posts.nodup cl known⟩
  intro other member
  rcases List.mem_cons.mp (more.mem_iff.mp member) with rfl | old
  · exact Or.inr notKept
  · exact Or.inl old

theorem Posts.take (posts : Posts [] s.net) (known : cl ∈ s.net.socks)
    (less : (s.net.sock cl).posts.Perm (ub :: (f (s.net.sock cl)).posts))
    (mail : ∀ other ∈ (f (s.net.sock cl)).mail, other ∈ (s.net.sock cl).mail) :
    Posts [ub] (s.mapSock cl f).net := by
  have nodup := List.nodup_cons.mp (less.nodup_iff.mp (posts.nodup cl known))
  refine posts.mapSock known nodup.2 ?_ ?_ ?_
  · exact fun other member => Or.inl (less.mem_iff.mpr (List.mem_cons_of_mem _ member))
  · intro other member
    rw [List.mem_singleton] at member
    subst member
    exact ⟨nodup.1, fun _ => less.mem_iff.mpr List.mem_cons_self⟩
  · exact fun other member => posts.plain cl known other (mail other member)

theorem InvBut.addMail (inv : InvBut out lib [ub] s) (known : cl ∈ s.net.socks)
    (plain : (s.net.buf ub).fd = none)
    (queue : (f (s.net.sock cl)).tx.txQueue = (s.net.sock cl).tx.txQueue)
    (mail : (f (s.net.sock cl)).mail.Perm (ub :: (s.net.sock cl).mail))
    (retmsg : (f (s.net.sock cl)).retmsg = (s.net.sock cl).retmsg)
    (fd : (f (s.net.sock cl)).rx.pendingMsgFd = (s.net.sock cl).rx.pendingMsgFd) :
    InvBut out lib [] (s.mapSock cl f) := by
  have posts : (f (s.net.sock cl)).posts.Perm (ub :: (s.net.sock cl).posts) := by
    rw [Sock.posts, retmsg, Sock.posts, ← List.cons_append]
    exact mail.append_right _
  refine inv.mapSock retmsg (inv.posts.add known posts ?_) (inv.custody.stow known ?_ fd)
  · intro other member
    rcases List.mem_cons.mp (mail.mem_iff.mp member) with rfl | old
    · exact plain
    · exact inv.posts.plain cl known other old
  · rw [Sock.refs, queue, Sock.refs]
    exact (posts.append_left _).trans List.perm_middle

theorem InvBut.takeMail (inv : InvBut out lib [] s) (known : cl ∈ s.net.socks)
    (queue : (f (s.net.sock cl)).tx.txQueue = (s.net.sock cl).tx.txQueue)
    (mail : (s.net.sock cl).mail.Perm (ub :: (f (s.net.sock cl)).mail))
    (retmsg : (f (s.net.sock cl)).retmsg = (s.net.sock cl).retmsg) :
    Posts [ub] (s.mapSock cl f).net ∧
      (s.net.sock cl).refs.Perm (ub :: (f (s.net.sock cl)).refs) := by
  have posts : (s.net.sock cl).posts.Perm (ub :: (f (s.net.sock cl)).posts) := by
    rw [Sock.posts, Sock.posts, retmsg, ← List.cons_append]
    exact mail.append_right _
  refine ⟨inv.posts.take known posts fun other member =>
    mail.mem_iff.mpr (List.mem_cons_of_mem _ member), ?_⟩
  rw [Sock.refs, Sock.refs, queue]
  exact (posts.append_left _).trans List.perm_middle

end

end Ubus
