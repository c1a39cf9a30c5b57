/-
**The ledger of accepted messages.**

Every message the daemon accepts has one entry in the trace, under the address of its buffer, and
whatever is submitted for a message comes after that entry.

* `Ledger s` — the entries are distinct, the work in the trace is on messages that have one, and so are
  the lookups that wait in a command queue.
* `Reachable.ledger`: it holds in every state that the daemon goes through.
-/

import Ubus.Safety
import Ubus.Turns

namespace Ubus

open Lib Relation

/-- The message that the daemon works on. -/
def Cause.buf : Cause → Option Nat
  | .message _ ub _ _ => some ub
  | .resume _ ub _ _ => some ub
  | _ => none

/-- The message was accepted. -/
def Accepted (trace : List Event) (cl ub : Nat) (hdr : Msghdr) (data : Payload) : Prop :=
  ∃ moment fd, .accept moment cl ub hdr data fd ∈ trace

/-- An entry of the work on this message. -/
def Event.For (cl ub : Nat) (hdr : Msghdr) (data : Payload) : Event → Prop
  | .accept .. => False
  | .submit moment .. => moment.cause.On cl ub hdr data
  | .sendObj moment .. => moment.cause.On cl ub hdr data

/-- The buffer of an accepted message. -/
def Event.acceptedBuf : Event → Option Nat
  | .accept _ _ ub _ _ _ => some ub
  | _ => none

/-- The buffers of the accepted messages, newest first. -/
def acceptedBufs (trace : List Event) : List Nat := trace.filterMap Event.acceptedBuf

/-- What waits for a client: queued lookups were accepted, the pending message was not. -/
structure Filed (s : State) (cl : Nat) : Prop where
  queued : ∀ cmd ∈ (s.net.sock cl).cmdQueue,
    Accepted s.trace cl cmd.msg (s.net.buf cmd.msg).hdr (s.net.buf cmd.msg).data ∧
      (s.net.buf cmd.msg).hdr.type = MsgType.lookup.code
  pending : ∀ ub, (s.net.sock cl).rx.pendingMsg = some ub → ub ∉ acceptedBufs s.trace

/-- **The ledger.** -/
structure Ledger (s : State) : Prop where
  worked : ∀ event ∈ s.trace, ∀ cl ub hdr data, event.For cl ub hdr data →
    Accepted s.trace cl ub hdr data
  once : (acceptedBufs s.trace).Nodup
  below : ∀ ub ∈ acceptedBufs s.trace, ub < s.net.brk
  filed : ∀ cl ∈ s.net.socks, Filed s cl

/-! ### Entries -/

section Entries

variable {lib : Libubox} {cause : Cause} {cl ub : Nat} {hdr : Msghdr} {data : Payload}
  {new trace trace' : List Event}

theorem Accepted.mono (accepted : Accepted trace cl ub hdr data) (more : trace ⊆ trace') :
    Accepted trace' cl ub hdr data := by
  obtain ⟨moment, fd, member⟩ := accepted
  exact ⟨moment, fd, more member⟩

theorem acceptedBufs_append (new trace : List Event) :
    acceptedBufs (new ++ trace) = acceptedBufs new ++ acceptedBufs trace := List.filterMap_append

theorem acceptedBufs_of_emits (emits : ∀ event ∈ new, Emits lib cause event) :
    acceptedBufs new = [] := by
  refine List.filterMap_eq_nil_iff.mpr fun event member => ?_
  cases event with
  | accept => exact (emits _ member).elim
  | submit => rfl
  | sendObj => rfl

theorem Emits.cause_eq {event : Event} (emits : Emits lib cause event)
    (work : event.For cl ub hdr data) : cause.On cl ub hdr data := by
  cases event with
  | accept => exact emits.elim
  | submit moment dest hdr' data' => exact emits.1 ▸ work
  | sendObj moment cl' ub' obj => exact emits.1 ▸ work

theorem Cause.On.unique {cl' ub' : Nat} {hdr' : Msghdr} {data' : Payload}
    (on : cause.On cl ub hdr data) (on' : cause.On cl' ub' hdr' data') :
    cl = cl' ∧ ub = ub' ∧ hdr = hdr' ∧ data = data' := by
  rcases on with rfl | rfl <;> rcases on' with same | same <;> cases same <;> exact ⟨rfl, rfl, rfl, rfl⟩

end Entries

/-! ### Moves -/

section Moves

variable {lib : Libubox} {cl ub : Nat} {s s' : State}

theorem Filed.rests (filed : Filed s cl) (known : cl ∈ s.net.socks) (rests : Rests cl s s')
    (more : s.trace ⊆ s'.trace) (fresh : ∀ ub ∈ acceptedBufs s'.trace,
      ub ∈ acceptedBufs s.trace ∨ ub ∉ (s.net.sock cl).mail) : Filed s' cl := by
  refine ⟨fun cmd member => ?_, fun ub pending accepted => ?_⟩
  · rw [rests.cmdQueue] at member
    obtain ⟨hdr, data⟩ := rests.mail known cmd.msg
      (List.mem_append_left _ (List.mem_map_of_mem member))
    obtain ⟨accepted, lookup⟩ := filed.queued cmd member
    rw [hdr, data]
    exact ⟨accepted.mono more, lookup⟩
  · rw [rests.rx] at pending
    have mine : ub ∈ (s.net.sock cl).mail := by
      rw [Sock.mail, show (s.net.sock cl).rx.pendingMsg = some ub from pending]
      exact List.mem_append_right _ (List.mem_singleton_self _)
    rcases fresh ub accepted with old | notMine
    · exact filed.pending ub pending old
    · exact notMine mine

theorem Filed.reads (filed : Filed s cl) (known : cl ∈ s.net.socks) (reads : Reads cl s s')
    (pending : ∀ ub, (s'.net.sock cl).rx.pendingMsg = some ub → ub ∉ acceptedBufs s.trace) :
    Filed s' cl := by
  refine ⟨fun cmd member => ?_, fun ub here => ?_⟩
  · rw [reads.cmdQueue] at member
    obtain ⟨hdr, data⟩ := reads.queued known cmd member
    rw [hdr, data, reads.trace]
    exact filed.queued cmd member
  · rw [reads.trace]
    exact pending ub here

theorem Ledger.reads (ledger : Ledger s) (reads : Reads cl s s')
    (pending : cl ∈ s.net.socks → ∀ ub, (s'.net.sock cl).rx.pendingMsg = some ub →
      ub ∉ acceptedBufs s.trace) : Ledger s' := by
  refine ⟨?_, ?_, ?_, fun other known => ?_⟩
  · rw [reads.trace]
    exact ledger.worked
  · rw [reads.trace]
    exact ledger.once
  · rw [reads.trace]
    exact fun ub accepted => (ledger.below ub accepted).trans_le reads.brk
  rw [reads.socks] at known
  by_cases same : other = cl
  · subst same
    exact (ledger.filed other known).reads known reads (pending known)
  refine (ledger.filed other known).rests known (reads.rests other same) ?_ ?_
  · rw [reads.trace]
    exact List.Subset.refl _
  · rw [reads.trace]
    exact fun ub accepted => Or.inl accepted

theorem headerDone_pending (empty : (s.net.sock cl).rx.pendingMsg = none)
    (pending : ((headerDone cl s).2.net.sock cl).rx.pendingMsg = some ub) : s.net.brk ≤ ub := by
  have made : Frame (fun _ => True) (fun _ => False) (fun _ => False) s
      (ubusMsgNew (.received ((s.rx cl).hdrbuf.drop 8)) false s).2 := (wire_new _ _ (by simp)).toFrame
  unfold headerDone at pending
  simp only at pending
  split at pending
  · rw [empty] at pending
    cases pending
  split at pending
  · rw [empty] at pending
    cases pending
  rcases result : ubusMsgNew (.received ((s.rx cl).hdrbuf.drop 8)) false s with ⟨_ | new, t⟩
  · rw [result] at pending made
    rw [made.rx cl, empty] at pending
    cases pending
  · rw [result] at pending
    simp only [State.mapRx, mapSock_self, Option.some.injEq] at pending
    rw [← pending, (ubusMsgNew_some result).1]

theorem recvHeader_pending (empty : (s.net.sock cl).rx.pendingMsg = none) (out : ReadOutcome)
    (pending : ((recvHeader cl out s).2.net.sock cl).rx.pendingMsg = some ub) : s.net.brk ≤ ub := by
  unfold recvHeader at pending
  cases out with
  | again =>
    rw [empty] at pending
    cases pending
  | got extra fd =>
    simp only at pending
    generalize min (extra + 1) (12 - (s.rx cl).pendingMsgOffset) = count at pending
    have still : ((recvFd cl fd (takeBytes cl count s).2).net.sock cl).rx.pendingMsg = none := by
      rw [(recvFd_keeps cl fd _).2]
      simpa [takeBytes, State.mapRx, State.mapSock] using empty
    have brk : s.net.brk ≤ (recvFd cl fd (takeBytes cl count s).2).net.brk :=
      ((reads_takeBytes count).trans (reads_recvFd fd) : Reads cl s _).brk
    generalize recvFd cl fd (takeBytes cl count s).2 = t at still brk pending
    split at pending
    · simp [State.mapRx, State.mapSock, still] at pending
    generalize filled : t.mapRx cl _ = u at pending
    have still' : (u.net.sock cl).rx.pendingMsg = none := by
      rw [← filled, State.mapRx, mapSock_self]
      exact still
    have brk' : u.net.brk = t.net.brk := by rw [← filled]; rfl
    exact brk.trans (brk' ▸ headerDone_pending still' pending)

theorem Ledger.work {cause : Cause} {new : List Event} (ledger : Ledger s)
    (trace : s'.trace = new ++ s.trace) (emits : ∀ event ∈ new, Emits lib cause event)
    (asked : ∀ cl ub hdr data, cause.On cl ub hdr data → Accepted s.trace cl ub hdr data)
    (brk : s.net.brk ≤ s'.net.brk) (filed : s.trace ⊆ s'.trace → acceptedBufs s'.trace =
      acceptedBufs s.trace → ∀ cl ∈ s'.net.socks, Filed s' cl) : Ledger s' := by
  have bufs : acceptedBufs s'.trace = acceptedBufs s.trace := by
    rw [trace, acceptedBufs_append, acceptedBufs_of_emits emits, List.nil_append]
  have more : s.trace ⊆ s'.trace := trace ▸ List.subset_append_right ..
  refine ⟨fun event member cl ub hdr data work => ?_, bufs ▸ ledger.once, ?_, filed more bufs⟩
  · rw [trace] at member
    refine Accepted.mono ?_ more
    rcases List.mem_append.mp member with member | member
    · exact asked cl ub hdr data ((emits event member).cause_eq work)
    · exact ledger.worked event member cl ub hdr data work
  · rw [bufs]
    exact fun ub accepted => (ledger.below ub accepted).trans_le brk

theorem Ledger.accepts {hdr : Msghdr} {data : Payload} (ledger : Ledger s) (inv : Inv lib [] s)
    (known : s.reg.HasClient cl) (pending : (s.net.sock cl).rx.pendingMsg = some ub)
    (accepts : Accepts lib cl ub hdr data s s') : Ledger s' := by
  obtain ⟨new, moment, fd, trace, emits⟩ := accepts.trace
  have socket := (inv.clients cl).mp known
  obtain ⟨others, -⟩ := inv.posts.pending_only socket pending
  have kept : s.net.Kept ub := kept_of_mail socket (by simp [Sock.mail, pending])
  have mine : Accepted s'.trace cl ub hdr data :=
    ⟨moment, fd, by rw [trace]; exact List.mem_append_right _ List.mem_cons_self⟩
  have bufs : acceptedBufs s'.trace = ub :: acceptedBufs s.trace := by
    rw [trace, acceptedBufs_append, acceptedBufs_of_emits emits]
    rfl
  have more : s.trace ⊆ s'.trace := by
    rw [trace]
    exact fun event member => List.mem_append_right _ (List.mem_cons_of_mem _ member)
  have filed := ledger.filed cl socket
  refine ⟨fun event member cl' ub' hdr' data' work => ?_, ?_, ?_, fun other known' => ?_⟩
  · rw [trace, List.mem_append, List.mem_cons] at member
    rcases member with member | rfl | member
    · obtain ⟨rfl, rfl, rfl, rfl⟩ := ((emits event member).cause_eq work).unique (Or.inl rfl)
      exact mine
    · exact work.elim
    · exact (ledger.worked event member cl' ub' hdr' data' work).mono more
  · rw [bufs]
    exact List.nodup_cons.mpr ⟨filed.pending ub pending, ledger.once⟩
  · rw [bufs]
    rintro ub' accepted
    rcases List.mem_cons.mp accepted with rfl | accepted
    · exact (inv.kept_below _ kept).trans_le accepts.brk
    · exact (ledger.below ub' accepted).trans_le accepts.brk
  · rw [accepts.socks] at known'
    by_cases same : other = cl
    · subst same
      have old : ∀ cmd ∈ (s.net.sock other).cmdQueue, Accepted s'.trace other cmd.msg
          (s'.net.buf cmd.msg).hdr (s'.net.buf cmd.msg).data ∧
          (s'.net.buf cmd.msg).hdr.type = MsgType.lookup.code := by
        intro cmd member
        obtain ⟨hdr', data'⟩ := accepts.queued cmd member
        obtain ⟨accepted, lookup⟩ := filed.queued cmd member
        rw [hdr', data']
        exact ⟨accepted.mono more, lookup⟩
      refine ⟨?_, fun ub' pending' => by rw [accepts.rx] at pending'; cases pending'⟩
      rcases accepts.queue with queue | ⟨path, queue, lookup, here, payload⟩
      · rw [queue]
        exact old
      intro cmd member
      rw [queue, List.mem_append, List.mem_singleton] at member
      rcases member with member | rfl
      · exact old cmd member
      · rw [here, payload]
        exact ⟨mine, lookup⟩
    · refine (ledger.filed other known').rests known' (accepts.rests other same) more
        fun ub' accepted => ?_
      rw [bufs] at accepted
      rcases List.mem_cons.mp accepted with rfl | accepted
      · exact Or.inr (others other known' same)
      · exact Or.inl accepted

/-- **Every move keeps the ledger.** -/
theorem Move.ledger (move : Move lib s s') (inv : Inv lib [] s) (ledger : Ledger s) :
    Ledger s' := by
  cases move.turn inv with
  | idle cause plain trace brk rests =>
    obtain ⟨new, trace, emits⟩ := trace
    refine ledger.work trace emits (fun cl ub hdr data on => absurd on (plain cl ub hdr data)) brk
      fun more bufs cl known => ?_
    rcases rests cl known with rests | ⟨-, rx, queue⟩
    · have known' := rests.known.mp known
      exact (ledger.filed cl known').rests known' rests more fun ub accepted => Or.inl (bufs ▸ accepted)
    · exact ⟨by rw [queue]; exact (nomatch ·, ·), by rw [rx]; exact (nomatch ·, ·)⟩
  | header cl out known empty room result reads =>
    refine ledger.reads reads fun _ ub pending accepted => ?_
    rw [result] at pending
    exact absurd (ledger.below ub accepted) (not_lt.mpr (recvHeader_pending empty out pending))
  | body cl ub count known pending less result reads =>
    refine ledger.reads reads fun socket ub' pending' => ?_
    have same : (s'.net.sock cl).rx.pendingMsg = (s.net.sock cl).rx.pendingMsg := by
      rw [result, State.mapRx, mapSock_self]
      simp [gotBody, takeBytes, State.mapRx, State.mapSock, State.mapBuf]
    exact (ledger.filed cl socket).pending ub' (same ▸ pending')
  | accept cl ub t known pending complete reads inv' result accepts =>
    have pending' : (t.net.sock cl).rx.pendingMsg = some ub := by
      rcases complete with ⟨rfl, -⟩ | ⟨count, rfl, -⟩
      · exact pending
      · simpa [gotBody, takeBytes, State.mapRx, State.mapSock, State.mapBuf] using pending
    refine (ledger.reads reads fun socket ub' here => ?_).accepts inv' (reads.reg ▸ known) pending'
      accepts
    rw [pending'] at here
    cases here
    exact (ledger.filed cl socket).pending ub pending
  | resume cl cmd known first result resumes =>
    obtain ⟨new, trace, emits⟩ := resumes.trace
    have socket := (inv.clients cl).mp known
    have head : (s.net.sock cl).cmdQueue = cmd :: (s.net.sock cl).cmdQueue.tail :=
      List.eq_cons_of_mem_head? first
    have filed := ledger.filed cl socket
    have queued : ∀ other ∈ (s.net.sock cl).cmdQueue, other.msg ∈ (s.net.sock cl).mail :=
      fun other member => List.mem_append_left _ (List.mem_map_of_mem member)
    have mine := filed.queued cmd (by rw [head]; exact List.mem_cons_self)
    refine ledger.work trace emits (fun cl' ub hdr data on => ?_) resumes.brk
      fun more bufs other known' => ?_
    · obtain ⟨rfl, rfl, rfl, rfl⟩ := on.unique (Or.inr rfl)
      exact mine.1
    rw [resumes.socks] at known'
    by_cases same : other = cl
    · subst same
      refine ⟨fun other' member => ?_, fun ub pending => ?_⟩
      · obtain ⟨old, member', same⟩ : ∃ old ∈ (s.net.sock other).cmdQueue, old.msg = other'.msg := by
          rcases resumes.queue with queue | ⟨key, queue⟩
          · rw [queue] at member
            exact ⟨other', List.mem_of_mem_tail member, rfl⟩
          rw [queue] at member
          rcases List.mem_cons.mp member with rfl | member
          · exact ⟨cmd, by rw [head]; exact List.mem_cons_self, rfl⟩
          · exact ⟨other', List.mem_of_mem_tail member, rfl⟩
        rw [← same]
        obtain ⟨hdr, data⟩ := resumes.mail old.msg (queued old member')
        obtain ⟨accepted, lookup⟩ := filed.queued old member'
        rw [hdr, data]
        exact ⟨accepted.mono more, lookup⟩
      · rw [bufs]
        exact filed.pending ub (resumes.rx ▸ pending)
    · exact (ledger.filed other known').rests known' (resumes.rests other same) more
        fun ub accepted => Or.inl (bufs ▸ accepted)

/-- **The ledger holds in every state that the daemon goes through.** -/
theorem Reachable.ledger (reachable : Reachable lib s) : Ledger s := by
  induction reachable with
  | refl =>
    exact ⟨(nomatch ·, ·), List.nodup_nil, (nomatch ·, ·), (nomatch ·, ·)⟩
  | tail before move ih => exact move.ledger (Reachable.inv before) ih

/-- **No message is worked on twice, and none that was not accepted.** In every state the buffers of the
accepted messages are distinct; whatever was submitted or looked up for a message comes with an entry
that it was accepted, with this header and these data; and so does every lookup that waits in the
command queue of a client. -/
theorem messages_accepted_once (reachable : Reachable lib s) :
    (acceptedBufs s.trace).Nodup ∧
    (∀ event ∈ s.trace, ∀ cl ub hdr data, event.For cl ub hdr data → Accepted s.trace cl ub hdr data) ∧
    ∀ cl, s.reg.HasClient cl → ∀ cmd ∈ (s.net.sock cl).cmdQueue,
      (s.net.buf cmd.msg).hdr.type = MsgType.lookup.code ∧
        Accepted s.trace cl cmd.msg (s.net.buf cmd.msg).hdr (s.net.buf cmd.msg).data := by
  have ledger := reachable.ledger
  refine ⟨ledger.once, ledger.worked, fun cl known cmd queued => ?_⟩
  obtain ⟨accepted, lookup⟩ := (ledger.filed cl ((reachable.inv.clients cl).mp known)).queued cmd queued
  exact ⟨lookup, accepted⟩

theorem messages_accepted_once_add :
    acceptedBufs (run Blob.libubox addRun State.init).trace ≠ [] ∧
    (acceptedBufs (run Blob.libubox addRun State.init).trace).Nodup :=
  ⟨by decide +kernel, (messages_accepted_once (reachable_run Blob.libubox addRun)).1⟩

end Moves

end Ubus
