/-
**What a move does to each client.**

A move reads from one client, accepts or resumes one message, or works on no message at all; every
other client keeps what it has received and queued.

* `Rests cl s s'` — the client keeps what it has received and queued.
* `Move.turn`: every move is one of them.
-/

import Ubus.Moves

namespace Ubus

open Lib

variable {keepFd : Nat → Prop} {cause : Cause} {subject : Nat} {events : Event → Prop}
  {held : List Nat} {cmd : ClientCmd}

/-- **A client rests**: what it has received and queued is as before, apart from bytes that have
arrived. -/
structure Rests (cl : Nat) (s s' : State) : Prop where
  known : cl ∈ s'.net.socks ↔ cl ∈ s.net.socks
  rx : (s'.net.sock cl).rx = { (s.net.sock cl).rx with inbox := (s'.net.sock cl).rx.inbox }
  cmdQueue : (s'.net.sock cl).cmdQueue = (s.net.sock cl).cmdQueue
  mail : cl ∈ s.net.socks → ∀ ub ∈ (s.net.sock cl).mail,
    (s'.net.buf ub).hdr = (s.net.buf ub).hdr ∧ (s'.net.buf ub).data = (s.net.buf ub).data

namespace Rests

variable {lib : Libubox} {cl : Nat} {s s' s'' : State}

theorem mail_eq (rests : Rests cl s s') : (s'.net.sock cl).mail = (s.net.sock cl).mail := by
  rw [Sock.mail, rests.cmdQueue, rests.rx, Sock.mail]

theorem trans (one : Rests cl s s') (two : Rests cl s' s'') : Rests cl s s'' := by
  refine ⟨two.known.trans one.known, ?_, two.cmdQueue.trans one.cmdQueue, fun known ub member => ?_⟩
  · rw [two.rx, one.rx]
  · obtain ⟨hdr, data⟩ := one.mail known ub member
    obtain ⟨hdr', data'⟩ := two.mail (one.known.mpr known) ub (by rw [one.mail_eq]; exact member)
    exact ⟨hdr'.trans hdr, data'.trans data⟩

theorem of_eq (socks : s'.net.socks = s.net.socks) (sock : s'.net.sock cl = s.net.sock cl)
    (buf : cl ∈ s.net.socks → ∀ ub ∈ (s.net.sock cl).mail,
      (s'.net.buf ub).hdr = (s.net.buf ub).hdr ∧ (s'.net.buf ub).data = (s.net.buf ub).data) :
    Rests cl s s' :=
  ⟨by rw [socks], by rw [sock], by rw [sock], buf⟩

theorem of_spares (spares : Spares lib cause subject s s') (differs : cl ≠ subject) :
    Rests cl s s' :=
  ⟨spares.socks cl differs, by rw [spares.rx cl differs], spares.cmdQueue cl differs,
    spares.mail cl differs⟩

theorem of_frame {keep : Nat → Prop} (frame : Frame events keep keepFd (s.rebase s') s')
    (kept : cl ∈ s.net.socks → ∀ ub ∈ (s.net.sock cl).mail, keep ub) : Rests cl s s' :=
  ⟨by rw [frame.socks]; rfl, by rw [frame.rx cl]; rfl, frame.cmdQueue cl, fun known ub member =>
    ⟨frame.hdr ub (kept known ub member), frame.data ub (kept known ub member)⟩⟩

end Rests

/-- A system call read from one client. -/
structure Reads (cl : Nat) (s s' : State) : Prop where
  reg : s'.reg = s.reg
  trace : s'.trace = s.trace
  socks : s'.net.socks = s.net.socks
  brk : s.net.brk ≤ s'.net.brk
  rests : ∀ other, other ≠ cl → Rests other s s'
  cmdQueue : (s'.net.sock cl).cmdQueue = (s.net.sock cl).cmdQueue
  queued : cl ∈ s.net.socks → ∀ cmd ∈ (s.net.sock cl).cmdQueue,
    (s'.net.buf cmd.msg).hdr = (s.net.buf cmd.msg).hdr ∧
      (s'.net.buf cmd.msg).data = (s.net.buf cmd.msg).data

/-- The bytes of a payload that a `read` got. -/
def gotBody (lib : Libubox) (cl ub count : Nat) (s : State) : State :=
  (takeBytes cl count s).2.mapBuf ub fun buf => { buf with
    data := .received (buf.data.bytes lib ++ (takeBytes cl count s).1) }

/-- **A message was accepted**: its entry comes first, then what its handler submits. A lookup may
wait in the command queue. -/
structure Accepts (lib : Libubox) (cl ub : Nat) (hdr : Msghdr) (data : Payload) (s s' : State) :
    Prop where
  trace : ∃ new moment fd, s'.trace = new ++ .accept moment cl ub hdr data fd :: s.trace ∧
    ∀ event ∈ new, Emits lib (.message cl ub hdr data) event
  brk : s.net.brk ≤ s'.net.brk
  rests : ∀ other, other ≠ cl → Rests other s s'
  socks : s'.net.socks = s.net.socks
  rx : (s'.net.sock cl).rx = { (s.net.sock cl).rx with
    pendingMsgFd := none, pendingMsgOffset := 0, pendingMsg := none }
  queue : (s'.net.sock cl).cmdQueue = (s.net.sock cl).cmdQueue ∨
    ∃ path, (s'.net.sock cl).cmdQueue = (s.net.sock cl).cmdQueue ++ [⟨ub, path⟩] ∧
      hdr.type = MsgType.lookup.code ∧ (s'.net.buf ub).hdr = hdr ∧ (s'.net.buf ub).data = data
  queued : ∀ cmd ∈ (s.net.sock cl).cmdQueue,
    (s'.net.buf cmd.msg).hdr = (s.net.buf cmd.msg).hdr ∧
      (s'.net.buf cmd.msg).data = (s.net.buf cmd.msg).data

/-- **A queued lookup was resumed**: it is finished and leaves the queue, or it waits again. -/
structure Resumes (lib : Libubox) (cl : Nat) (cmd : ClientCmd) (s s' : State) : Prop where
  trace : ∃ new, s'.trace = new ++ s.trace ∧ ∀ event ∈ new,
    Emits lib (.resume cl cmd.msg (s.net.buf cmd.msg).hdr (s.net.buf cmd.msg).data) event
  brk : s.net.brk ≤ s'.net.brk
  rests : ∀ other, other ≠ cl → Rests other s s'
  socks : s'.net.socks = s.net.socks
  rx : (s'.net.sock cl).rx = (s.net.sock cl).rx
  queue : (s'.net.sock cl).cmdQueue = (s.net.sock cl).cmdQueue.tail ∨ ∃ key,
    (s'.net.sock cl).cmdQueue = { cmd with lookupPath := some key } :: (s.net.sock cl).cmdQueue.tail
  mail : ∀ ub ∈ (s.net.sock cl).mail,
    (s'.net.buf ub).hdr = (s.net.buf ub).hdr ∧ (s'.net.buf ub).data = (s.net.buf ub).data

/-- **The kinds of moves.** -/
inductive Turn (lib : Libubox) (s s' : State) : Prop where
  /-- No message of a client is worked on. -/
  | idle (cause : Cause) (plain : ∀ cl ub hdr data, ¬ cause.On cl ub hdr data)
      (trace : ∃ new, s'.trace = new ++ s.trace ∧ ∀ event ∈ new, Emits lib cause event)
      (brk : s.net.brk ≤ s'.net.brk) (rests : ∀ cl ∈ s'.net.socks, Rests cl s s' ∨
        cl ∉ s.net.socks ∧ (s'.net.sock cl).rx = {} ∧ (s'.net.sock cl).cmdQueue = [])
  /-- Bytes of a header are read. -/
  | header (cl : Nat) (out : ReadOutcome) (known : s.reg.HasClient cl)
      (empty : (s.rx cl).pendingMsg = none) (room : (s.rx cl).pendingMsgOffset < 12)
      (result : s' = (recvHeader cl out s).2) (reads : Reads cl s s')
  /-- Bytes of a payload are read, and more are missing. -/
  | body (cl ub count : Nat) (known : s.reg.HasClient cl)
      (pending : (s.rx cl).pendingMsg = some ub)
      (less : ((s.rx cl).inbox.take count).length < bodyLeft lib cl ub s)
      (result : s' = (gotBody lib cl ub count s).mapRx cl fun rx => { rx with
        pendingMsgOffset := rx.pendingMsgOffset + ((s.rx cl).inbox.take count).length })
      (reads : Reads cl s s')
  /-- A message is accepted, perhaps after its last bytes are read. -/
  | accept (cl ub : Nat) (t : State) (known : s.reg.HasClient cl)
      (pending : (s.rx cl).pendingMsg = some ub)
      (complete : t = s ∧ bodyLeft lib cl ub s = 0 ∨ ∃ count, t = gotBody lib cl ub count s ∧
        ((s.rx cl).inbox.take count).length = bodyLeft lib cl ub s)
      (reads : Reads cl s t) (inv : Inv lib [] t)
      (result : s' = acceptMessage lib cl ub t)
      (accepts : Accepts lib cl ub (t.net.buf ub).hdr (t.net.buf ub).data t s')
  /-- A queued lookup is resumed. -/
  | resume (cl : Nat) (cmd : ClientCmd) (known : s.reg.HasClient cl)
      (first : (s.sock cl).cmdQueue.head? = some cmd)
      (result : s' = (resumeCmd lib cl cmd s).1) (resumes : Resumes lib cl cmd s s')

/-! ### Reading -/

section Reading

variable {lib : Libubox} {cl ub : Nat} {s s' s'' : State}

theorem Reads.trans (one : Reads cl s s') (two : Reads cl s' s'') : Reads cl s s'' := by
  refine ⟨two.reg.trans one.reg, two.trace.trans one.trace, two.socks.trans one.socks,
    one.brk.trans two.brk, fun other differs => (one.rests other differs).trans
    (two.rests other differs), two.cmdQueue.trans one.cmdQueue, fun known cmd member => ?_⟩
  obtain ⟨hdr, data⟩ := one.queued known cmd member
  obtain ⟨hdr', data'⟩ := two.queued (one.socks ▸ known) cmd (one.cmdQueue ▸ member)
  exact ⟨hdr'.trans hdr, data'.trans data⟩

theorem Reads.mapRx (f : Rx → Rx) : Reads cl s (s.mapRx cl f) :=
  ⟨rfl, rfl, rfl, le_rfl, fun _ differs => Rests.of_eq rfl (mapSock_of_ne s differs _)
    fun _ _ _ => ⟨rfl, rfl⟩, by rw [State.mapRx, mapSock_self], fun _ _ _ => ⟨rfl, rfl⟩⟩

theorem Reads.of_frame (frame : Frame (fun _ => False) s.net.Kept keepFd s s') : Reads cl s s' := by
  obtain ⟨new, trace, none⟩ := frame.trace
  have nothing : new = [] := List.eq_nil_iff_forall_not_mem.mpr none
  subst nothing
  exact ⟨frame.reg, trace, frame.socks, frame.brk, fun other _ => Rests.of_frame frame.rebase
    fun known ub member => kept_of_mail known member, frame.cmdQueue cl, fun known cmd member =>
    have kept := kept_of_mail known (List.mem_append_left _ (List.mem_map_of_mem member))
    ⟨frame.hdr _ kept, frame.data _ kept⟩⟩

theorem Reads.refl : Reads cl s s :=
  Reads.of_frame (Frame.refl s : Frame _ _ (fun _ => False) s s)

theorem reads_takeBytes (count : Nat) : Reads cl s (takeBytes cl count s).2 := by
  unfold takeBytes
  simp only
  exact Reads.mapRx _

theorem reads_recvFd (fd : Bool) : Reads cl s (recvFd cl fd s) := by
  unfold recvFd
  split
  · obtain ⟨reg, trace, socks, brk, rests, queue, queued⟩ : Reads cl s (s.mapRx cl fun rx =>
      { rx with pendingMsgFd := some s.net.fdBrk }) := Reads.mapRx _
    exact ⟨reg, trace, socks, brk, fun other differs => (rests other differs).trans
      (Rests.of_eq rfl rfl fun _ _ _ => ⟨rfl, rfl⟩), queue, queued⟩
  · exact Reads.refl

theorem reads_headerDone (inv : Inv lib [] s) : Reads cl s (headerDone cl s).2 := by
  unfold headerDone
  simp only
  split
  · exact Reads.refl
  split
  · exact Reads.refl
  have made : Frame (fun _ => False) s.net.Kept s.net.Kept s
      (ubusMsgNew (.received ((s.rx cl).hdrbuf.drop 8)) false s).2 :=
    (wire_new _ _ (by simpa using inv.kept_below)).toFrame
  rcases result : ubusMsgNew (.received ((s.rx cl).hdrbuf.drop 8)) false s with ⟨_ | ub, t⟩
  · rw [result] at made
    exact Reads.of_frame made
  rw [result] at made
  have fresh : ¬ (s.net.Kept ub ∨ s.net.Kept ub) := by
    rintro (kept | kept) <;>
      exact absurd (inv.kept_below ub kept) (by rw [(ubusMsgNew_some result).1]; exact lt_irrefl _)
  have filled : Reads cl s (t.mapHdr ub fun _ => parseHdr (s.rx cl).hdrbuf) :=
    Reads.of_frame (made.trans (wire_mapBuf_free _ fresh).toFrame)
  simp only
  exact filled.trans (Reads.mapRx _)

theorem reads_recvHeader (inv : Inv lib [] s) (known : cl ∈ s.net.socks) (out : ReadOutcome) :
    Reads cl s (recvHeader cl out s).2 := by
  unfold recvHeader
  cases out with
  | again => exact Reads.refl
  | got extra fd =>
    simp only
    generalize min (extra + 1) (12 - (s.rx cl).pendingMsgOffset) = count
    have taken : Reads cl s (takeBytes cl count s).2 := reads_takeBytes count
    have inv1 := inv_recvFd (inv_takeBytes inv known count) known fd
    have known1 : cl ∈ (recvFd cl fd (takeBytes cl count s).2).net.socks := by
      rw [(recvFd_keeps cl fd _).1]
      exact known
    have both := taken.trans (reads_recvFd fd)
    generalize recvFd cl fd (takeBytes cl count s).2 = t at both inv1 known1 ⊢
    split
    · simp only
      exact both.trans (Reads.mapRx _)
    · exact (both.trans (Reads.mapRx _)).trans (reads_headerDone (inv_mapRx inv1 known1 rfl rfl))

theorem Posts.pending_only {net : Net} (posts : Posts held net) (known : cl ∈ net.socks)
    (pending : (net.sock cl).rx.pendingMsg = some ub) :
    (∀ other ∈ net.socks, other ≠ cl → ub ∉ (net.sock other).mail) ∧
      ∀ cmd ∈ (net.sock cl).cmdQueue, cmd.msg ≠ ub := by
  have mine : ub ∈ (net.sock cl).mail := by simp [Sock.mail, pending]
  refine ⟨fun other known' differs member => differs (posts.owner other known' cl known ub
    (List.mem_append_left _ member) (List.mem_append_left _ mine)), ?_⟩
  rintro cmd member rfl
  have nodup := (List.nodup_append.mp (posts.nodup cl known)).1
  rw [Sock.mail, pending, Option.toList_some, List.nodup_append] at nodup
  exact nodup.2.2 _ (List.mem_map_of_mem member) _ (List.mem_singleton_self _) rfl

theorem reads_gotBody (inv : Inv lib [] s) (known : cl ∈ s.net.socks)
    (pending : (s.net.sock cl).rx.pendingMsg = some ub) (count : Nat) :
    Reads cl s (gotBody lib cl ub count s) := by
  obtain ⟨others, own⟩ := inv.posts.pending_only known pending
  have buf : ∀ other, other ≠ ub →
      (gotBody lib cl ub count s).net.buf other = s.net.buf other := fun other differs =>
    Function.update_of_ne differs _ _
  refine ⟨rfl, rfl, rfl, le_rfl, fun other differs => Rests.of_eq rfl ?_ fun known' b member => ?_,
    (reads_takeBytes count).cmdQueue, fun _ cmd member => ?_⟩
  · show (takeBytes cl count s).2.net.sock other = _
    rw [takeBytes, State.mapRx, mapSock_of_ne s differs]
  · rw [buf b (by rintro rfl; exact others other known' differs member)]
    exact ⟨rfl, rfl⟩
  · rw [buf _ (own cmd member)]
    exact ⟨rfl, rfl⟩

end Reading

/-! ### Accepting and resuming -/

section Working

variable {lib : Libubox} {cl ub : Nat} {s s' : State}

theorem Moved.rests (moved : Moved lib (s.net.KeptBut cl) s s') (posts : Posts held s.net)
    (known : cl ∈ s.net.socks) (other : Nat) : Rests other s s' :=
  Rests.of_frame moved fun known' _ member => posts.keptBut known known' member

theorem takeMessage_facts (cl ub : Nat) (s : State) :
    (∃ moment fd, (takeMessage cl ub s).trace =
      .accept moment cl ub (s.net.buf ub).hdr (s.net.buf ub).data fd :: s.trace) ∧
    (∀ other, other ≠ cl → (takeMessage cl ub s).net.sock other = s.net.sock other) ∧
    ((takeMessage cl ub s).net.sock cl).rx = { (s.net.sock cl).rx with
      pendingMsgFd := none, pendingMsgOffset := 0, pendingMsg := none } ∧
    ((takeMessage cl ub s).net.sock cl).cmdQueue = (s.net.sock cl).cmdQueue ∧
    ∀ b, ((takeMessage cl ub s).net.buf b).hdr = (s.net.buf b).hdr ∧
      ((takeMessage cl ub s).net.buf b).data = (s.net.buf b).data := by
  refine ⟨by simp [takeMessage, State.log, State.mapRx, State.mapSock, State.mapBuf],
    fun other differs => ?_, ?_, ?_, fun b => ⟨?_, ?_⟩⟩
  · simp [takeMessage, State.log, State.mapRx, State.mapSock, State.mapBuf, differs]
  · simp [takeMessage, State.log, State.mapRx, State.mapSock, State.mapBuf]
  · simp [takeMessage, State.log, State.mapRx, State.mapSock, State.mapBuf]
  · exact update_keeps MsgBuf.hdr s.net.buf (by rfl) b
  · exact update_keeps MsgBuf.data s.net.buf (by rfl) b

/-- **What accepting a message does.** -/
theorem accepts_acceptMessage (inv : Inv lib [] s) (known : s.reg.HasClient cl)
    (pending : (s.net.sock cl).rx.pendingMsg = some ub) :
    Accepts lib cl ub (s.net.buf ub).hdr (s.net.buf ub).data s (acceptMessage lib cl ub s) := by
  have socket := (inv.clients cl).mp known
  obtain ⟨⟨moment, fd, logged⟩, socks, rx, queue, bufs⟩ := takeMessage_facts cl ub s
  obtain ⟨processing, frame⟩ := acceptMessage_processing inv known pending
  obtain ⟨taken, -⟩ := takeMessage_spec inv socket pending
  have socket' : cl ∈ (ubusdMonitorMessage lib cl ub false (takeMessage cl ub s)).net.socks :=
    frame.mem_socks socket
  have first : ∀ other, Rests other (takeMessage cl ub s)
      (ubusdMonitorMessage lib cl ub false (takeMessage cl ub s)) := fun other =>
    Rests.of_frame frame.rebase fun known' _ member => Or.inl (kept_of_mail known' member)
  have apart : ∀ other, other ≠ cl → Rests other s (takeMessage cl ub s) := fun other differs =>
    Rests.of_eq rfl (socks other differs) fun _ b _ => bufs b
  obtain ⟨-, -, received⟩ := receiveMessage_spec lib processing
  have causeEq : (ubusdMonitorMessage lib cl ub false (takeMessage cl ub s)).cause =
      .message cl ub (s.net.buf ub).hdr (s.net.buf ub).data := processing.cause
  obtain ⟨new1, trace1, all1⟩ := frame.trace
  rw [show (takeMessage cl ub s).cause = .message cl ub (s.net.buf ub).hdr (s.net.buf ub).data from
    frame.cause.symm.trans causeEq] at all1
  -- What the handler does, up to the state in which a lookup may be queued.
  have work : ∀ t, Moved lib ((ubusdMonitorMessage lib cl ub false
      (takeMessage cl ub s)).net.KeptBut cl) (ubusdMonitorMessage lib cl ub false
      (takeMessage cl ub s)) t →
      (∃ new moment fd, t.trace = new ++ .accept moment cl ub (s.net.buf ub).hdr
        (s.net.buf ub).data fd :: s.trace ∧
        ∀ event ∈ new, Emits lib (.message cl ub (s.net.buf ub).hdr (s.net.buf ub).data) event) ∧
      s.net.brk ≤ t.net.brk ∧ (∀ other, other ≠ cl → Rests other s t) ∧ t.net.socks = s.net.socks ∧
      Rests cl (takeMessage cl ub s) t := by
    intro t moved
    have rests := fun other => (first other).trans
      (moved.rests processing.inv.posts socket' other)
    obtain ⟨new2, trace2, all2⟩ := moved.trace
    rw [causeEq] at all2
    refine ⟨⟨new2 ++ new1, moment, fd, ?_, ?_⟩, frame.brk.trans moved.brk, fun other differs => (apart other differs).trans
      (rests other), moved.socks.trans frame.socks, rests cl⟩
    · rw [trace2, show (State.rebase _ t).trace = (ubusdMonitorMessage lib cl ub false
        (takeMessage cl ub s)).trace from rfl, trace1, logged, List.append_assoc]
    · intro event member
      rcases List.mem_append.mp member with member | member
      exacts [all2 event member, all1 event member]
  have mailed : ∀ cmd ∈ (s.net.sock cl).cmdQueue, cmd.msg ∈ ((takeMessage cl ub s).net.sock cl).mail :=
    fun cmd member => List.mem_append_left _ (List.mem_map_of_mem (queue.symm ▸ member))
  have same : ∀ {t : State}, Rests cl (takeMessage cl ub s) t → ∀ cmd ∈ (s.net.sock cl).cmdQueue,
      (t.net.buf cmd.msg).hdr = (s.net.buf cmd.msg).hdr ∧
        (t.net.buf cmd.msg).data = (s.net.buf cmd.msg).data := by
    intro t rests cmd member
    obtain ⟨hdr, data⟩ := rests.mail socket cmd.msg (mailed cmd member)
    exact ⟨hdr.trans (bufs _).1, data.trans (bufs _).2⟩
  unfold acceptMessage
  simp only
  cases received with
  | handled moved =>
    obtain ⟨trace, brk, rests, socks', own⟩ := work _ moved
    refine ⟨trace, brk, rests, socks', ?_, Or.inl (own.cmdQueue.trans queue), same own⟩
    rw [moved.rx cl]
    show ((ubusdMonitorMessage lib cl ub false (takeMessage cl ub s)).net.sock cl).rx = _
    rw [frame.rx cl, rx]
  | queued t path moved typed here payload result =>
    obtain ⟨trace, brk, rests, socks', own⟩ := work _ moved
    rw [result]
    refine ⟨trace, brk, fun other differs => (rests other differs).trans (Rests.of_eq rfl
      (mapSock_of_ne t differs _) fun _ _ _ => ⟨rfl, rfl⟩), socks', ?_, Or.inr ⟨path, ?_, typed, here,
      payload⟩, fun cmd member => same own cmd member⟩
    · rw [ubusClientCmdQueueAdd, mapSock_self]
      show (t.net.sock cl).rx = _
      rw [moved.rx cl]
      show ((ubusdMonitorMessage lib cl ub false (takeMessage cl ub s)).net.sock cl).rx = _
      rw [frame.rx cl, rx]
    · rw [ubusClientCmdQueueAdd, mapSock_self, own.cmdQueue, queue]

theorem rests_resuming {other : Nat}
    (frame : Frame events s.net.Kept keepFd (resuming cl cmd s) s') : Rests other s s' := by
  have begun : Rests other s (resuming cl cmd s) := Rests.of_eq rfl rfl fun _ _ _ => ⟨rfl, rfl⟩
  exact begun.trans (Rests.of_frame frame.rebase fun known _ member => kept_of_mail known member)

/-- **What resuming a lookup does.** -/
theorem resumes_resumeCmd (inv : Inv lib [] s) (known : s.reg.HasClient cl)
    (first : (s.net.sock cl).cmdQueue.head? = some cmd) :
    Resumes lib cl cmd s (resumeCmd lib cl cmd s).1 := by
  have socket := (inv.clients cl).mp known
  have inv0 : Inv lib [] (resuming cl cmd s) := inv.congr rfl rfl rfl rfl
  have head : (s.net.sock cl).cmdQueue = cmd :: (s.net.sock cl).cmdQueue.tail :=
    List.eq_cons_of_mem_head? first
  have kept := kept_of_mail socket (mem_mail_of_head first)
  have result := resumeCmd_cases inv known first
  generalize resumeCmd lib cl cmd s = r at result ⊢
  cases result with
  | finished t status sends =>
    have frame := sends.frame
    have invT : Inv lib [] t := inv0.of_sends frame (sends.custody inv0.custody) (by simp)
    have knownT := frame.mem_socks socket
    have queueT : (t.net.sock cl).cmdQueue = (s.net.sock cl).cmdQueue := frame.cmdQueue cl
    obtain ⟨-, moved, -⟩ := finishResumed_spec invT knownT (Or.inr frame.cause) (frame.hdr _ kept)
      (by rw [queueT, first]) status
    have restsT : ∀ other, Rests other s t := fun other => rests_resuming frame
    have rests1 := fun other => (restsT other).trans (moved.rests invT.posts knownT other)
    obtain ⟨new1, trace1, all1⟩ := frame.trace
    obtain ⟨new2, trace2, all2⟩ := moved.trace
    rw [frame.cause] at all2
    generalize sendStatus lib cl status (setRetmsg cl cmd.msg t) = u at moved rests1 trace2 all2 ⊢
    unfold ubusClientCmdFree
    generalize start : u.mapSock cl (fun sock => { sock with cmdQueue := sock.cmdQueue.tail }) = v
    have freed : Wire (fun _ => False) (fun _ => True) (fun _ => True) v (ubusMsgFree cmd.msg v) :=
      wire_free cmd.msg v
    have trace3 : (ubusMsgFree cmd.msg v).trace = v.trace := by
      obtain ⟨new, trace, all⟩ := freed.trace
      rw [trace, List.eq_nil_iff_forall_not_mem.mpr all, List.nil_append]
    have bufs : ∀ b, ((ubusMsgFree cmd.msg v).net.buf b).hdr = (u.net.buf b).hdr ∧
        ((ubusMsgFree cmd.msg v).net.buf b).data = (u.net.buf b).data := fun b =>
      ⟨by rw [freed.hdr b trivial, ← start]; rfl, by rw [freed.data b trivial, ← start]; rfl⟩
    have sock : ∀ other, (ubusMsgFree cmd.msg v).net.sock other = v.net.sock other := fun other => by
      rw [(ubusMsgFree_net ..).1]
    refine ⟨⟨new2 ++ new1, ?_, ?_⟩, ?_, fun other differs => (rests1 other).trans (Rests.of_eq ?_ ?_
      fun _ b _ => bufs b), ?_, ?_, Or.inl ?_, fun b member => ?_⟩
    · rw [trace3, ← start]
      exact trace2.trans (by rw [List.append_assoc, ← trace1]; rfl)
    · intro event member
      rcases List.mem_append.mp member with member | member
      exacts [all2 event member, all1 event member]
    · exact (frame.brk.trans moved.brk).trans (by rw [← start] at freed ⊢; exact freed.brk)
    · rw [freed.socks, ← start]
      rfl
    · rw [sock, ← start, mapSock_of_ne u differs]
    · rw [freed.socks, ← start]
      exact moved.socks.trans frame.socks
    · rw [sock, ← start, mapSock_self]
      exact (moved.rx cl).trans (frame.rx cl)
    · rw [sock, ← start, mapSock_self, (rests1 cl).cmdQueue]
    · obtain ⟨hdr, data⟩ := (rests1 cl).mail socket b member
      exact ⟨(bufs b).1.trans hdr, (bufs b).2.trans data⟩
  | parked t key sends =>
    have frame := sends.frame
    have rests : ∀ other, Rests other s t := fun other => rests_resuming frame
    refine ⟨frame.trace, frame.brk, fun other differs => (rests other).trans (Rests.of_eq rfl
      (mapSock_of_ne t differs _) fun _ _ _ => ⟨rfl, rfl⟩), frame.socks, ?_, Or.inr ⟨key, ?_⟩,
      fun b member => (rests cl).mail socket b member⟩
    · rw [setLookupPath, mapSock_self]
      exact frame.rx cl
    rw [setLookupPath, mapSock_self]
    simp only
    rw [(rests cl).cmdQueue, head]
    rfl

end Working

/-! ### Moves are turns -/

section Moves

variable {lib : Libubox} {cl ub : Nat} {s s' : State}

theorem Turn.of_spares (plain : ∀ cl ub hdr data, ¬ cause.On cl ub hdr data)
    (spares : Spares lib cause subject s s')
    (own : subject ∈ s'.net.socks → Rests subject s s' ∨ subject ∉ s.net.socks ∧ (s'.net.sock subject).rx = {} ∧ (s'.net.sock subject).cmdQueue = []) :
    Turn lib s s' := by
  refine .idle cause plain spares.trace spares.brk fun cl known => ?_
  by_cases same : cl = subject
  · subst same
    exact own known
  · exact Or.inl (Rests.of_spares spares same)

theorem Turn.of_rests (trace : s'.trace = s.trace) (brk : s.net.brk ≤ s'.net.brk)
    (rests : ∀ cl, Rests cl s s') : Turn lib s s' :=
  .idle .idle (by rintro _ _ _ _ (on | on) <;> cases on) ⟨[], trace, by simp⟩ brk
    fun cl _ => Or.inl (rests cl)

theorem txWrite_frame (lib : Libubox) (cl ub : Nat) (out : WriteOutcome) (s : State) :
    Frame (fun _ => False) (fun _ => True) (fun _ => True) s (txWrite lib cl ub out s) := by
  have written : Frame (fun _ => False) (fun _ => True) (fun _ => True) s
      (ubusMsgWritev lib cl ub (s.tx cl).txqOfs out s).2 := (wire_writev lib cl ub _ out s).toFrame
  unfold txWrite
  rcases result : ubusMsgWritev lib cl ub (s.tx cl).txqOfs out s with ⟨_ | count, t⟩
  · rw [result] at written
    exact written
  rw [result] at written
  have advanced := written.trans (frame_mapTx cl fun tx => { tx with
    txqOfs := tx.txqOfs + count, txqLen := tx.txqLen - count })
  simp only [txAdvance, ubusMsgListFree]
  split
  · exact advanced
  · exact ((advanced.trans (frame_mapTx cl _)).trans (frame_mapTx cl _)).trans (wire_free ub _).toFrame

theorem rests_txWrite (lib : Libubox) (cl ub : Nat) (out : WriteOutcome) (s : State) :
    (txWrite lib cl ub out s).trace = s.trace ∧
      ∀ other, Rests other s (txWrite lib cl ub out s) := by
  have frame := txWrite_frame lib cl ub out s
  obtain ⟨new, trace, none⟩ := frame.trace
  have nothing : new = [] := List.eq_nil_iff_forall_not_mem.mpr none
  subst nothing
  exact ⟨trace, fun other => Rests.of_frame frame.rebase fun _ _ _ => trivial⟩

theorem rests_mapTx (cl other : Nat) (f : Tx → Tx) (s : State) : Rests other s (s.mapTx cl f) := by
  have frame : Frame (fun _ => False) (fun _ => True) (fun _ => True) s (s.mapTx cl f) :=
    frame_mapTx cl f
  exact Rests.of_frame frame.rebase fun _ _ _ => trivial

theorem rests_arrive (cl other : Nat) (bytes : Bytes) (hup : Bool) (s : State) : Rests other s
    ((s.mapRx cl fun rx => { rx with inbox := rx.inbox ++ bytes }).mapTx cl fun tx =>
      { tx with eof := tx.eof || hup }) := by
  refine Rests.trans ?_ (rests_mapTx cl other _ _)
  by_cases same : other = cl
  · subst same
    refine ⟨Iff.rfl, ?_, ?_, fun _ _ _ => ⟨rfl, rfl⟩⟩ <;> simp [State.mapRx, State.mapSock]
  · exact Rests.of_eq rfl (mapSock_of_ne s same _) fun _ _ _ => ⟨rfl, rfl⟩

theorem inv_gotBody (inv : Inv lib [] s) (known : s.reg.HasClient cl) (count : Nat) :
    Inv lib [] (gotBody lib cl ub count s) :=
  (inv_takeBytes inv ((inv.clients cl).mp known) count).mapBuf rfl rfl rfl (fun _ => rfl) fun _ => rfl

theorem pending_gotBody (pending : (s.net.sock cl).rx.pendingMsg = some ub) (count : Nat) :
    ((gotBody lib cl ub count s).net.sock cl).rx.pendingMsg = some ub := by
  simpa [gotBody, takeBytes, State.mapRx, State.mapSock, State.mapBuf] using pending

/-- **What a `read` of a payload does**: nothing, or bytes are added and the message is perhaps
complete. -/
theorem recvBody_cases (lib : Libubox) (cl ub : Nat) (out : ReadOutcome) (s : State) :
    (recvBody lib cl ub out s).2 = s ∨ ∃ count,
      ((s.rx cl).inbox.take count = [] ∧ (recvBody lib cl ub out s).2 = (takeBytes cl count s).2) ∨
      (((s.rx cl).inbox.take count).length < bodyLeft lib cl ub s ∧ (recvBody lib cl ub out s).2 =
        (gotBody lib cl ub count s).mapRx cl fun rx => { rx with
          pendingMsgOffset := rx.pendingMsgOffset + ((s.rx cl).inbox.take count).length }) ∨
      (((s.rx cl).inbox.take count).length = bodyLeft lib cl ub s ∧
        (recvBody lib cl ub out s).2 = acceptMessage lib cl ub (gotBody lib cl ub count s)) := by
  unfold recvBody
  cases out with
  | again => exact Or.inl rfl
  | got extra fd =>
    obtain ⟨count, bound, same⟩ : ∃ count, count ≤ bodyLeft lib cl ub s ∧
        min (extra + 1) (bodyLeft lib cl ub s) = count := ⟨_, min_le_right _ _, rfl⟩
    refine Or.inr ⟨count, ?_⟩
    simp only [same]
    have bytes : (takeBytes cl count s).1 = (s.rx cl).inbox.take count := rfl
    split
    · rename_i nothing
      rw [bytes, List.isEmpty_iff] at nothing
      exact Or.inl ⟨nothing, rfl⟩
    · split
      · rename_i less
        exact Or.inr (Or.inl ⟨less, rfl⟩)
      · rename_i notLess
        exact Or.inr (Or.inr ⟨le_antisymm ((List.length_take_le _ _).trans bound) (not_lt.mp notLess),
          rfl⟩)

theorem turn_recvBody (inv : Inv lib [] s) (known : s.reg.HasClient cl)
    (pending : (s.net.sock cl).rx.pendingMsg = some ub) (out : ReadOutcome) :
    Turn lib s (recvBody lib cl ub out s).2 := by
  have socket := (inv.clients cl).mp known
  rcases recvBody_cases lib cl ub out s with same | ⟨count, ⟨nothing, same⟩ | ⟨less, same⟩ | ⟨all, same⟩⟩
  · rw [same]
    exact Turn.of_rests rfl le_rfl fun cl => Rests.of_eq rfl rfl fun _ _ _ => ⟨rfl, rfl⟩
  · rw [same]
    refine Turn.of_rests rfl le_rfl fun other => ?_
    by_cases own : other = cl
    · subst own
      refine ⟨Iff.rfl, ?_, (reads_takeBytes count).cmdQueue, fun _ _ _ => ⟨rfl, rfl⟩⟩
      simp [takeBytes, State.mapRx, State.mapSock, nothing]
    · exact (reads_takeBytes count).rests other own
  · rw [same]
    exact .body cl ub count known pending less rfl
      ((reads_gotBody inv socket pending count).trans (Reads.mapRx _))
  · rw [same]
    have filled : Inv lib [] (gotBody lib cl ub count s) := inv_gotBody inv known count
    exact .accept cl ub _ known pending (Or.inr ⟨count, rfl, all⟩)
      (reads_gotBody inv socket pending count) filled rfl
      (accepts_acceptMessage filled known (pending_gotBody pending count))

theorem rests_aclLoad (inv : Inv lib [] s) (host : Host) (dir : Directory) (fault : Bool)
    (other : Nat) : Rests other s (aclLoadAndAnnounce lib host dir fault s) := by
  have begun : Rests other s { s with cause := .aclLoad } :=
    Rests.of_eq rfl rfl fun _ _ _ => ⟨rfl, rfl⟩
  exact begun.trans (Rests.of_frame (aclLoad_moved inv host dir fault).work.sends.frame.rebase
    fun known' _ member => kept_of_mail known' member)

/-- **Every move is a turn.** -/
theorem Move.turn (move : Move lib s s') (inv : Inv lib [] s) : Turn lib s s' := by
  cases move with
  | begin writes allocs rnd =>
    exact Turn.of_rests rfl le_rfl fun cl => Rests.of_eq rfl rfl fun _ _ _ => ⟨rfl, rfl⟩
  | connect cred =>
    obtain ⟨-, spares, fresh⟩ := newClient_spec inv cred
    refine Turn.of_spares (by rintro _ _ _ _ (on | on) <;> cases on) spares fun known => ?_
    have absent : s.reg.brk ∉ s.net.socks := fun known' =>
      absurd (inv.good.clients.lt_of_has ((inv.clients _).mpr known')) (lt_irrefl _)
    exact Or.inr ⟨absent, fresh known⟩
  | @arrive cl known bytes hup =>
    exact Turn.of_rests rfl le_rfl fun other => rests_arrive cl other bytes hup s
  | @write cl ub known first out =>
    obtain ⟨trace, rests⟩ := rests_txWrite lib cl ub out s
    exact Turn.of_rests trace (txWrite_frame lib cl ub out s).brk rests
  | resume known first =>
    exact .resume _ _ known first rfl (resumes_resumeCmd inv known first)
  | @quiet cl known =>
    exact Turn.of_rests rfl le_rfl fun other => rests_mapTx cl other _ s
  | header known empty opened room out =>
    exact .header _ out known empty room rfl (reads_recvHeader inv (inv.sockets _ known) out)
  | body known pending out => exact turn_recvBody inv known pending out
  | accept known pending complete =>
    exact .accept _ _ s known pending (Or.inl ⟨rfl, complete⟩) Reads.refl inv rfl
      (accepts_acceptMessage inv known pending)
  | disconnect known =>
    obtain ⟨-, absent, spares, -⟩ := disconnect_spec inv known
    exact Turn.of_spares (by rintro _ _ _ _ (on | on) <;> cases on) spares fun here =>
      absurd here absent
  | aclLoad host dir fault =>
    have frame := (aclLoad_moved inv host dir fault).work.sends.frame.rebase
    exact .idle .aclLoad (by rintro _ _ _ _ (on | on) <;> cases on) frame.trace frame.brk
      fun other _ => Or.inl (rests_aclLoad inv host dir fault other)

/-- **A message of a client is passed to `ubusd_proto_receive_message`**, in this state: it was complete,
or its last bytes were just read, and the monitors were told. -/
inductive Handles (lib : Libubox) (cl ub : Nat) : State → Prop where
  | complete {s : State} (reachable : Reachable lib s) (known : s.reg.HasClient cl)
      (pending : (s.rx cl).pendingMsg = some ub) (all : bodyLeft lib cl ub s = 0) :
      Handles lib cl ub (ubusdMonitorMessage lib cl ub false (takeMessage cl ub s))
  | read {s : State} (count : Nat) (reachable : Reachable lib s) (known : s.reg.HasClient cl)
      (pending : (s.rx cl).pendingMsg = some ub)
      (all : ((s.rx cl).inbox.take count).length = bodyLeft lib cl ub s) :
      Handles lib cl ub
        (ubusdMonitorMessage lib cl ub false (takeMessage cl ub (gotBody lib cl ub count s)))

theorem Handles.processing (handles : Handles lib cl ub s) :
    Processing lib cl ub (s.net.buf ub).hdr (s.net.buf ub).data s := by
  have exact' : ∀ {hdr : Msghdr} {data : Payload}, Processing lib cl ub hdr data s →
      Processing lib cl ub (s.net.buf ub).hdr (s.net.buf ub).data s := fun {hdr data} processing => by
    rw [processing.hdr, processing.data]
    exact processing
  cases handles with
  | complete reachable known pending _ =>
    exact exact' (acceptMessage_processing reachable.inv known pending).1
  | read count reachable known pending _ =>
    exact exact' (acceptMessage_processing (inv_gotBody reachable.inv known count) known
      (pending_gotBody pending count)).1

theorem Turn.trace_grows (turn : Turn lib s s') : s.trace ⊆ s'.trace := by
  cases turn with
  | idle cause plain trace _ _ =>
    obtain ⟨new, trace, -⟩ := trace
    exact trace ▸ List.subset_append_right ..
  | header cl out known empty room result reads => exact reads.trace ▸ List.Subset.refl _
  | body cl ub count known pending less result reads => exact reads.trace ▸ List.Subset.refl _
  | accept cl ub t known pending complete reads inv result accepts =>
    obtain ⟨new, moment, fd, trace, -⟩ := accepts.trace
    rw [trace, reads.trace]
    exact fun _ member => List.mem_append_right _ (List.mem_cons_of_mem _ member)
  | resume cl cmd known first result resumes =>
    obtain ⟨new, trace, -⟩ := resumes.trace
    exact trace ▸ List.subset_append_right ..

end Moves

end Ubus
