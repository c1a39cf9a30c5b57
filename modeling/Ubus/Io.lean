/-
**System calls on a client's socket.**

The invariant is kept by every `sendmsg` of the first loop of `client_cb`, every `recvmsg` and `read`
of its second loop, the acceptance of a complete message and the resumption of a queued lookup.

* `inv_txWrite`, `inv_recvHeader`, `inv_recvBody`, `inv_acceptMessage`, `resumeCmd_spec`.
* `resumeCmd_cases`: a resumed lookup is finished, or waits again.
-/

import Ubus.Dispatch

namespace Ubus

open Lib
open scoped List

/-- One `sendmsg` of the first loop of `client_cb`. -/
def txWrite (lib : Libubox) (cl ub : Nat) (out : WriteOutcome) (s : State) : State :=
  match ubusMsgWritev lib cl ub (s.tx cl).txqOfs out s with
  | (none, s) => s
  | (some written, s) => txAdvance lib cl ub written s

/-! ### Sending what is queued -/

@[simp] theorem ubusMsgFree_reg (ub : Nat) (s : State) :
    (ubusMsgFree ub s).reg = s.reg ∧ (ubusMsgFree ub s).cause = s.cause := by
  unfold ubusMsgFree msgRelease closeFd
  split <;> (try split) <;> exact ⟨rfl, rfl⟩

@[simp] theorem ubusMsgFree_net (ub : Nat) (s : State) :
    (ubusMsgFree ub s).net.sock = s.net.sock ∧ (ubusMsgFree ub s).net.socks = s.net.socks ∧
      (ubusMsgFree ub s).net.monitors = s.net.monitors := by
  unfold ubusMsgFree msgRelease closeFd
  split <;> (try split) <;> exact ⟨rfl, rfl, rfl⟩

section Write

variable {out : Option Nat} {lib : Libubox} {cl ub : Nat} {s : State}

theorem inv_mapTx {held : List Nat} (inv : InvBut out lib held s) (known : cl ∈ s.net.socks)
    {f : Tx → Tx} (queue : (f (s.net.sock cl).tx).txQueue = (s.net.sock cl).tx.txQueue) :
    InvBut out lib held (s.mapTx cl f) := by
  refine inv.touchSock known ?_ rfl rfl rfl
  rw [Sock.refs, queue]
  rfl

theorem inv_msgListFree (inv : InvBut out lib [] s) (known : cl ∈ s.net.socks)
    (first : (s.net.sock cl).tx.txQueue.head? = some ub) :
    InvBut out lib [] (ubusMsgListFree cl s ub) := by
  have fetched : Custody (Clean lib s.trace) [ub] none
      (s.mapTx cl fun tx => { tx with txQueue := tx.txQueue.tail }).net := by
    refine inv.custody.fetch known ?_ rfl
    rw [Sock.refs, List.eq_cons_of_mem_head? first]
    exact List.Perm.refl _
  refine inv.of_sends ((frame_mapTx cl _).trans (wire_free ub _).toFrame) ?_ (by simp)
  exact fetched.free (by simp)

theorem inv_txAdvance (inv : Inv lib [] s) (known : cl ∈ s.net.socks)
    (first : (s.net.sock cl).tx.txQueue.head? = some ub) (written : Nat) :
    Inv lib [] (txAdvance lib cl ub written s) := by
  have advanced : Inv lib [] (s.mapTx cl fun tx => { tx with
      txqOfs := tx.txqOfs + written, txqLen := tx.txqLen - written }) := inv_mapTx inv known rfl
  unfold txAdvance
  simp only
  split
  · exact advanced
  · refine inv_msgListFree (inv_mapTx advanced known rfl) known ?_
    simp [State.mapTx, State.mapSock, first]

theorem inv_txWrite (inv : Inv lib [] s) (known : cl ∈ s.net.socks)
    (first : (s.net.sock cl).tx.txQueue.head? = some ub) (out : WriteOutcome) :
    Inv lib [] (txWrite lib cl ub out s) := by
  unfold txWrite ubusMsgWritev
  cases out with
  | again => exact inv
  | error => exact inv
  | sent extra =>
    simp only
    refine inv_txAdvance (inv_mapTx inv known rfl) known ?_ _
    simp [State.mapTx, State.mapSock, first]

end Write

/-! ### Reading -/

section Read

variable {lib : Libubox} {cl ub : Nat} {s : State}

theorem inv_mapRx {held : List Nat} (inv : Inv lib held s) (known : cl ∈ s.net.socks) {f : Rx → Rx}
    (pending : (f (s.net.sock cl).rx).pendingMsg = (s.net.sock cl).rx.pendingMsg)
    (fd : (f (s.net.sock cl).rx).pendingMsgFd = (s.net.sock cl).rx.pendingMsgFd) :
    Inv lib held (s.mapRx cl f) := by
  have mail : ({ s.net.sock cl with rx := f (s.net.sock cl).rx } : Sock).mail =
      (s.net.sock cl).mail := by
    simp only [Sock.mail, pending]
  exact inv.touchSock known (by simp only [Sock.refs, Sock.posts, mail]) mail rfl fd

theorem inv_takeBytes (inv : Inv lib [] s) (known : cl ∈ s.net.socks) (count : Nat) :
    Inv lib [] (takeBytes cl count s).2 := by
  unfold takeBytes
  simp only
  exact inv_mapRx inv known rfl rfl

theorem inv_recvFd (inv : Inv lib [] s) (known : cl ∈ s.net.socks) (fd : Bool) :
    Inv lib [] (recvFd cl fd s) := by
  unfold recvFd
  split
  · rename_i wanted
    have empty : (s.net.sock cl).rx.pendingMsgFd = none := by
      simpa using (Bool.and_eq_true_iff.mp wanted).2
    have custody := inv.custody.issueFd known empty (f := fun sock => { sock with
      rx := { sock.rx with pendingMsgFd := some s.net.fdBrk } }) rfl rfl
    have posts : Posts [] (s.mapSock cl fun sock => { sock with
        rx := { sock.rx with pendingMsgFd := some s.net.fdBrk } }).net :=
      inv.posts.mapSock known (inv.posts.nodup cl known) (fun _ => Or.inl) (by simp)
        (inv.posts.plain cl known)
    have status : ∀ other ∈ s.net.socks, StatusReady (s.mapSock cl fun sock => { sock with
        rx := { sock.rx with pendingMsgFd := some s.net.fdBrk } }).net other :=
      fun other known' => (inv.status other known' (by simp)).mapSock (by rfl)
    exact ⟨inv.good, inv.sockets, inv.connected, ⟨inv.monitors.nodup, inv.monitors.live⟩,
      ⟨posts.nodup, posts.owner, posts.free, posts.plain⟩, fun other known' _ => status other known',
      custody, inv.trace, inv.fault⟩
  · exact inv

theorem recvFd_keeps (cl : Nat) (fd : Bool) (s : State) :
    (recvFd cl fd s).net.socks = s.net.socks ∧
      ((recvFd cl fd s).net.sock cl).rx.pendingMsg = (s.net.sock cl).rx.pendingMsg := by
  unfold recvFd
  split
  · simp [State.mapRx, State.mapSock]
  · exact ⟨rfl, rfl⟩

theorem inv_headerDone (inv : Inv lib [] s) (known : cl ∈ s.net.socks)
    (empty : (s.net.sock cl).rx.pendingMsg = none) : Inv lib [] (headerDone cl s).2 := by
  unfold headerDone
  simp only
  split
  · exact inv
  split
  · exact inv
  rcases result : ubusMsgNew (.received ((s.rx cl).hdrbuf.drop 8)) false s with ⟨_ | ub, t⟩
  · have sends : Sends (Emits lib s.cause) s.net.Kept s t := sends_new_none result
    exact inv.of_sends sends.frame (sends.custody inv.custody) (by simp)
  have made : Made (Emits lib s.cause) s.net.Kept s t ub := Made.new inv.kept_below result
  have notKept : ¬ s.net.Kept ub := fun kept =>
    absurd (inv.kept_below ub kept) (not_lt.mpr made.fresh)
  have filled := made.fill inv.kept_below (f := fun buf => { buf with
    hdr := parseHdr (s.rx cl).hdrbuf }) rfl rfl rfl
  have inv' := inv.of_sends filled.frame (filled.custody inv.custody)
    (by simpa using notKept)
  refine inv'.addMail (f := fun sock => { sock with
    rx := { sock.rx with pendingMsg := some ub } }) (filled.frame.mem_socks known) ?_ rfl ?_
    rfl rfl
  · simp [State.mapBuf, ubusMsgNew_buf result]
  · have rx : ((t.mapBuf ub _).net.sock cl).rx = (s.net.sock cl).rx := filled.frame.rx cl
    simp only [Sock.mail, rx, empty, Option.toList_some, Option.toList_none, List.append_nil]
    exact List.perm_append_singleton _ _

theorem inv_recvHeader (inv : Inv lib [] s) (known : cl ∈ s.net.socks)
    (empty : (s.net.sock cl).rx.pendingMsg = none) (out : ReadOutcome) :
    Inv lib [] (recvHeader cl out s).2 := by
  unfold recvHeader
  cases out with
  | again => exact inv
  | got extra fd =>
    simp only
    generalize min (extra + 1) (12 - (s.rx cl).pendingMsgOffset) = count
    have taken := inv_takeBytes inv known count
    have known1 : cl ∈ (takeBytes cl count s).2.net.socks := known
    have got := inv_recvFd taken known1 fd
    obtain ⟨socks, pending⟩ := recvFd_keeps cl fd (takeBytes cl count s).2
    have known2 : cl ∈ (recvFd cl fd (takeBytes cl count s).2).net.socks := by rwa [socks]
    have empty2 : ((recvFd cl fd (takeBytes cl count s).2).net.sock cl).rx.pendingMsg = none := by
      rw [pending]
      simpa [takeBytes, State.mapRx, State.mapSock] using empty
    generalize recvFd cl fd (takeBytes cl count s).2 = t at got known2 empty2 ⊢
    split
    · simp only
      exact inv_mapRx got known2 rfl rfl
    · refine inv_headerDone (inv_mapRx got known2 rfl rfl) known2 ?_
      simpa [State.mapRx, State.mapSock] using empty2

theorem takeMessage_spec (inv : Inv lib [] s) (known : cl ∈ s.net.socks)
    (pending : (s.net.sock cl).rx.pendingMsg = some ub) :
    Inv lib [ub] (takeMessage cl ub s) ∧ (Clean lib (takeMessage cl ub s).trace →
      ¬ (((takeMessage cl ub s).net.buf ub).fd ≠ none ∧
        (s.net.buf ub).hdr.type = MsgType.invoke.code ∧ AclQuery lib (s.net.buf ub).data)) := by
  have inMail : ub ∈ (s.net.sock cl).mail := by simp [Sock.mail, pending]
  have empty := inv.posts.plain cl known ub inMail
  set f : Sock → Sock := fun sock => { sock with rx := { sock.rx with
    pendingMsgFd := none, pendingMsgOffset := 0, pendingMsg := none } } with fDef
  have mail : (s.net.sock cl).mail.Perm (ub :: (f (s.net.sock cl)).mail) := by
    simp only [fDef, Sock.mail, pending, Option.toList_some, Option.toList_none, List.append_nil]
    exact List.perm_append_singleton _ _
  obtain ⟨posts, refs⟩ := inv.takeMail (f := f) known rfl mail rfl
  have custody : Custody (Clean lib s.trace) [ub] none (takeMessage cl ub s).net :=
    inv.custody.takePending known refs empty rfl
  have hdr : ((takeMessage cl ub s).net.buf ub).hdr = (s.net.buf ub).hdr := by
    simp [takeMessage, State.log, State.mapRx, State.mapSock, State.mapBuf]
  have payload : ((takeMessage cl ub s).net.buf ub).data = (s.net.buf ub).data := by
    simp [takeMessage, State.log, State.mapRx, State.mapSock, State.mapBuf]
  have fd : ((takeMessage cl ub s).net.buf ub).fd = (s.net.sock cl).rx.pendingMsgFd := by
    simp [takeMessage, State.log, State.mapRx, State.mapSock, State.mapBuf]
  obtain ⟨moment, logged⟩ : ∃ moment, (takeMessage cl ub s).trace =
      .accept moment cl ub (s.net.buf ub).hdr (s.net.buf ub).data
        (s.net.sock cl).rx.pendingMsgFd :: s.trace := by
    simp [takeMessage, State.log, State.mapRx, State.mapSock, State.mapBuf]
  refine ⟨⟨inv.good, inv.sockets, inv.connected, ⟨inv.monitors.nodup, inv.monitors.live⟩, ?_, ?_,
    ?_, ?_, inv.fault⟩, ?_⟩
  · refine ⟨posts.nodup, posts.owner, posts.free, fun owner known' other member => ?_⟩
    have differs : other ≠ ub := by
      rintro rfl
      exact posts.free other List.mem_cons_self (kept_of_mail known' member)
    have same : (takeMessage cl ub s).net.buf other = s.net.buf other := by
      simp [takeMessage, State.log, State.mapRx, State.mapSock, State.mapBuf, differs]
    rw [same]
    exact posts.plain owner known' other member
  · intro owner known' notOut
    obtain ⟨retmsg, here, type, version⟩ :=
      StatusReady.mapSock (f := f) (inv.status owner known' notOut) (show _ = (s.net.sock cl).retmsg from rfl)
    have same : ((takeMessage cl ub s).net.buf retmsg).hdr = (s.net.buf retmsg).hdr :=
      update_keeps MsgBuf.hdr s.net.buf (by rfl) retmsg
    exact ⟨retmsg, here, by rw [same]; exact type, by rw [same]; exact version⟩
  · rw [logged]
    exact custody.mono fun clean event member => clean event (List.mem_cons_of_mem _ member)
  · rw [logged]
    intro event member
    rcases List.mem_cons.mp member with rfl | member
    · trivial
    · exact inv.trace event member
  · intro clean leaks
    rw [fd] at leaks
    rw [logged] at clean
    exact clean _ List.mem_cons_self ⟨leaks.2.1, leaks.1, leaks.2.2⟩

/-- **A complete message is accepted**: it is handled with its buffer held. -/
theorem acceptMessage_processing (inv : Inv lib [] s) (known : s.reg.HasClient cl)
    (pending : (s.net.sock cl).rx.pendingMsg = some ub) :
    Processing lib cl ub (s.net.buf ub).hdr (s.net.buf ub).data
        (ubusdMonitorMessage lib cl ub false (takeMessage cl ub s)) ∧
      Frame (Emits lib (takeMessage cl ub s).cause)
        (keepAnd (takeMessage cl ub s).net.Kept ub) (keepAnd (takeMessage cl ub s).net.Kept ub)
        (takeMessage cl ub s) (ubusdMonitorMessage lib cl ub false (takeMessage cl ub s)) := by
  obtain ⟨taken, safe⟩ := takeMessage_spec inv ((inv.clients cl).mp known) pending
  set t := takeMessage cl ub s with tDef
  have bound : ∀ other, keepAnd t.net.Kept ub other ∨ keepAnd t.net.Kept ub other →
      other < t.net.brk := by
    intro other kept
    rcases (by simpa using kept : t.net.Kept other ∨ other = ub) with kept | rfl
    · exact taken.kept_below other kept
    · exact taken.custody.lt_of_held List.mem_cons_self
  have hdr : (t.net.buf ub).hdr = (s.net.buf ub).hdr := by
    simp [tDef, takeMessage, State.log, State.mapRx, State.mapSock, State.mapBuf]
  have payload : (t.net.buf ub).data = (s.net.buf ub).data := by
    simp [tDef, takeMessage, State.log, State.mapRx, State.mapSock, State.mapBuf]
  have cause : t.cause = .message cl ub (s.net.buf ub).hdr (s.net.buf ub).data := by
    simp [tDef, takeMessage, State.log, State.mapRx, State.mapSock, State.mapBuf]
  have admits : AdmitsRecord (Emits lib t.cause) t.moment
      (monitorRecord lib (t.reg.client cl) (t.buf ub) false) := by
    intro dest head typed version
    refine ⟨rfl, ?_⟩
    rw [cause, ← hdr, ← payload]
    exact .received typed version
  have frame : Frame (Emits lib t.cause) (keepAnd t.net.Kept ub) (keepAnd t.net.Kept ub) t
      (ubusdMonitorMessage lib cl ub false t) :=
    (wire_monitorMessage lib bound admits).toFrame
  have inv' : Inv lib [ub] (ubusdMonitorMessage lib cl ub false t) :=
    taken.of_sends (frame.mono (fun _ => id) (fun _ => Or.inl) fun _ => Or.inl)
      (taken.custody.monitorMessage lib taken.known.monitors) taken.posts.free
  obtain ⟨new, trace, _⟩ := frame.trace
  refine ⟨⟨inv', frame.cause.trans cause, by rw [frame.reg]; exact known, ?_,
    (frame.hdr ub (Or.inr rfl)).trans hdr, (frame.data ub (Or.inr rfl)).trans payload⟩, frame⟩
  intro clean leaks
  rw [trace] at clean
  rw [frame.fd ub (Or.inr rfl)] at leaks
  exact safe clean.of_append leaks

theorem inv_acceptMessage (inv : Inv lib [] s) (known : s.reg.HasClient cl)
    (pending : (s.net.sock cl).rx.pendingMsg = some ub) :
    Inv lib [] (acceptMessage lib cl ub s) ∧
      (acceptMessage lib cl ub s).reg.clients = s.reg.clients := by
  obtain ⟨processing, frame⟩ := acceptMessage_processing inv known pending
  obtain ⟨inv', clients, _⟩ := receiveMessage_spec lib processing
  refine ⟨inv', clients.trans ?_⟩
  rw [frame.reg]
  rfl

theorem inv_recvBody (inv : Inv lib [] s) (known : s.reg.HasClient cl)
    (pending : (s.net.sock cl).rx.pendingMsg = some ub) (out : ReadOutcome) :
    Inv lib [] (recvBody lib cl ub out s).2 ∧
      (recvBody lib cl ub out s).2.reg.clients = s.reg.clients := by
  have socket := (inv.clients cl).mp known
  unfold recvBody
  cases out with
  | again => exact ⟨inv, rfl⟩
  | got extra fd =>
    simp only
    generalize min (extra + 1) (bodyLeft lib cl ub s) = count
    have taken := inv_takeBytes inv socket count
    split
    · exact ⟨taken, rfl⟩
    have filled : Inv lib [] ((takeBytes cl count s).2.mapBuf ub fun buf => { buf with
        data := .received (buf.data.bytes lib ++ (takeBytes cl count s).1) }) :=
      taken.mapBuf rfl rfl rfl (fun _ => rfl) fun _ => rfl
    split
    · refine ⟨?_, rfl⟩
      simp only
      exact inv_mapRx filled socket rfl rfl
    · refine inv_acceptMessage filled known ?_
      simpa [takeBytes, State.mapRx, State.mapSock, State.mapBuf] using pending

end Read

/-! ### Resuming a lookup -/

section Resume

variable {lib : Libubox} {cl : Nat} {cmd : ClientCmd} {s : State}

/-- The daemon works on a queued command, which stays in the queue. -/
abbrev resuming (cl : Nat) (cmd : ClientCmd) (s : State) : State :=
  { s with cause := .resume cl cmd.msg (s.buf cmd.msg).hdr (s.buf cmd.msg).data }

theorem mem_mail_of_head {sock : Sock} (first : sock.cmdQueue.head? = some cmd) :
    cmd.msg ∈ sock.mail :=
  List.mem_append_left _ (List.mem_map_of_mem (List.mem_of_mem_head? first))

theorem resuming_handling (inv : Inv lib [] s) (known : s.reg.HasClient cl)
    (first : (s.net.sock cl).cmdQueue.head? = some cmd) :
    Handling (fun other => s.net.Kept other ∧ other ≠ cmd.msg) cl cmd.msg
      (s.net.buf cmd.msg).hdr (s.net.buf cmd.msg).data (resuming cl cmd s) where
  on := Or.inr rfl
  ready := ⟨inv.good, ⟨inv.known.clients, inv.known.monitors⟩, fun other kept =>
    inv.kept_below other kept.1⟩
  client := known
  below := inv.kept_below _ (kept_of_mail ((inv.clients cl).mp known) (mem_mail_of_head first))
  free := fun kept => kept.2 rfl
  hdr := rfl
  data := rfl

theorem inv_clientCmdFree {out : Option Nat} (inv : InvBut out lib [] s) (known : cl ∈ s.net.socks)
    (first : (s.net.sock cl).cmdQueue.head? = some cmd) :
    InvBut out lib [] (ubusClientCmdFree cl s cmd) := by
  set f : Sock → Sock := fun sock => { sock with cmdQueue := sock.cmdQueue.tail } with fDef
  have mail : (s.net.sock cl).mail.Perm (cmd.msg :: (f (s.net.sock cl)).mail) := by
    rw [Sock.mail, List.eq_cons_of_mem_head? first]
    exact List.Perm.refl _
  obtain ⟨posts, refs⟩ := inv.takeMail (f := f) known rfl mail rfl
  have taken : InvBut out lib [cmd.msg] (s.mapSock cl f) :=
    inv.mapSock rfl posts (inv.custody.fetch known refs rfl)
  exact taken.free

theorem inv_setLookupPath (inv : Inv lib [] s) (known : cl ∈ s.net.socks) (key : CString) :
    Inv lib [] (setLookupPath cl key s) := by
  have mail : ((s.net.sock cl).cmdQueue.modifyHead fun cmd => { cmd with
      lookupPath := some key }).map ClientCmd.msg = (s.net.sock cl).cmdQueue.map ClientCmd.msg := by
    cases (s.net.sock cl).cmdQueue <;> rfl
  refine inv.touchSock known ?_ ?_ rfl rfl
  · simp only [Sock.refs, Sock.posts, Sock.mail, mail]
  · simp only [Sock.mail, mail]

theorem finishResumed_spec {t : State} (inv : Inv lib [] t) (known : cl ∈ t.net.socks)
    {hdr : Msghdr} {data : Payload} (on : t.cause.On cl cmd.msg hdr data)
    (here : (t.net.buf cmd.msg).hdr = hdr) (first : (t.net.sock cl).cmdQueue.head? = some cmd)
    (status : Status) :
    let t' := sendStatus lib cl status (setRetmsg cl cmd.msg t)
    Inv lib [] t' ∧ Moved lib (t.net.KeptBut cl) t t' ∧ t'.reg = t.reg := by
  have notStatus := (inv.posts.keptBut known known (mem_mail_of_head first)).2
  obtain ⟨retmsg, inv1, moved1, prepared, reg1⟩ := setRetmsg_spec inv known notStatus
  rw [here] at prepared
  have on1 : (setRetmsg cl cmd.msg t).cause.On cl cmd.msg hdr data := by
    rw [show (setRetmsg cl cmd.msg t).cause = t.cause from moved1.cause]
    exact on
  obtain ⟨inv2, moved2, reg2⟩ :=
    sendStatus_spec inv1 (moved1.mem_socks known) on1 prepared status
  exact ⟨inv2, (moved1.mono fun _ => Or.inl).trans (moved2.mono fun other =>
    (moved1.keptBut_iff cl other).mpr), reg2.trans reg1⟩

/-- How the resumption of a lookup ends, and whether the queue goes on. -/
inductive Resumed (lib : Libubox) (cl : Nat) (cmd : ClientCmd) (s : State) : State × Bool → Prop where
  /-- It is finished. -/
  | finished (t : State) (status : Status)
      (sends : Sends (Emits lib (resuming cl cmd s).cause) s.net.Kept (resuming cl cmd s) t) :
      Resumed lib cl cmd s
        (ubusClientCmdFree cl (sendStatus lib cl status (setRetmsg cl cmd.msg t)) cmd, true)
  /-- It waits again. -/
  | parked (t : State) (key : CString)
      (sends : Sends (Emits lib (resuming cl cmd s).cause) s.net.Kept (resuming cl cmd s) t) :
      Resumed lib cl cmd s (setLookupPath cl key t, false)

theorem resumeCmd_cases (inv : Inv lib [] s) (known : s.reg.HasClient cl)
    (first : (s.net.sock cl).cmdQueue.head? = some cmd) :
    Resumed lib cl cmd s (resumeCmd lib cl cmd s) := by
  have socket := (inv.clients cl).mp known
  have plain := inv.posts.plain cl socket _ (mem_mail_of_head first)
  have ctx := resuming_handling inv known first
  have kept : ∀ other, s.net.Kept other →
      keepAnd (fun other => s.net.Kept other ∧ other ≠ cmd.msg) cmd.msg other := by
    intro other kept
    by_cases same : other = cmd.msg
    · exact Or.inr same
    · exact Or.inl ⟨kept, same⟩
  obtain ⟨t, sends, ⟨status, done⟩ | ⟨key, parked⟩⟩ := handleLookup_cases lib ctx plain
    (ubusParseMsg lib (s.net.buf cmd.msg).data) (some cmd)
  · unfold resumeCmd ubusdCmdLookup
    simp only [State.buf] at done ⊢
    rw [done]
    exact .finished t status (sends.mono (fun _ => id) kept)
  · unfold resumeCmd ubusdCmdLookup
    simp only [State.buf, Option.isSome_some, if_true] at parked ⊢
    rw [parked]
    exact .parked t key (sends.mono (fun _ => id) kept)

theorem resumeCmd_spec (inv : Inv lib [] s) (known : s.reg.HasClient cl)
    (first : (s.net.sock cl).cmdQueue.head? = some cmd) :
    let r := resumeCmd lib cl cmd s
    Inv lib [] r.1 ∧ r.1.reg = s.reg ∧
      (r.2 = true → (r.1.net.sock cl).cmdQueue = (s.net.sock cl).cmdQueue.tail) := by
  have socket := (inv.clients cl).mp known
  have inv0 : Inv lib [] (resuming cl cmd s) := inv.congr rfl rfl rfl rfl
  have after {t : State}
      (sends : Sends (Emits lib (resuming cl cmd s).cause) s.net.Kept (resuming cl cmd s) t) :
      Inv lib [] t ∧ cl ∈ t.net.socks ∧ (t.net.sock cl).cmdQueue = (s.net.sock cl).cmdQueue ∧
        t.reg = s.reg :=
    ⟨inv0.of_sends sends.frame (sends.custody inv0.custody) (by simp),
      sends.frame.mem_socks socket, sends.frame.cmdQueue cl, sends.frame.reg⟩
  have result := resumeCmd_cases inv known first
  generalize resumeCmd lib cl cmd s = r at result ⊢
  cases result with
  | finished t status sends =>
    obtain ⟨invT, knownT, queueT, regT⟩ := after sends
    have kept := kept_of_mail socket (mem_mail_of_head first)
    have on : t.cause.On cl cmd.msg (s.net.buf cmd.msg).hdr (s.net.buf cmd.msg).data :=
      Or.inr sends.frame.cause
    have firstT : (t.net.sock cl).cmdQueue.head? = some cmd := by rw [queueT, first]
    obtain ⟨inv', moved, reg⟩ :=
      finishResumed_spec invT knownT on (sends.frame.hdr _ kept) firstT status
    have queue' : ((sendStatus lib cl status (setRetmsg cl cmd.msg t)).net.sock cl).cmdQueue =
        (s.net.sock cl).cmdQueue := (moved.cmdQueue cl).trans queueT
    refine ⟨inv_clientCmdFree inv' (moved.mem_socks knownT) (by rw [queue', first]), ?_, fun _ => ?_⟩
    · rw [ubusClientCmdFree, (ubusMsgFree_reg ..).1]
      exact reg.trans regT
    · rw [ubusClientCmdFree, (ubusMsgFree_net ..).1, mapSock_self, queue']
  | parked t key sends =>
    obtain ⟨invT, knownT, _, regT⟩ := after sends
    exact ⟨inv_setLookupPath invT knownT key, regT, by simp⟩

theorem resumeCmd_busy (lib : Libubox) (cl : Nat) (cmd : ClientCmd) (s : State)
    (waits : (resumeCmd lib cl cmd s).2 = false) : ((resumeCmd lib cl cmd s).1.tx cl).txQueue ≠ [] := by
  obtain ⟨sent, -, -, cases⟩ := handleLookup_eq lib cl cmd.msg
    (ubusParseMsg lib (s.buf cmd.msg).data) (some cmd) (resuming cl cmd s)
  unfold resuming at cases
  unfold resumeCmd ubusdCmdLookup at waits ⊢
  simp only [State.buf] at cases waits ⊢
  rcases cases with ⟨status, result, -⟩ | ⟨node, others, -, -, busy, result⟩
  · rw [result] at waits
    cases waits
  · rw [result]
    simpa [park, setLookupPath, State.mapSock] using busy

end Resume

end Ubus
