/-
**A message is handled** (`ubusd_proto_receive_message`).

* `dispatch_cases` — the handler of the message, from the lemmas about the handlers.
* `receiveMessage_inv`: a received message leaves the invariant intact, and the messages that clients
  keep alone.
-/

import Ubus.Invariant

namespace Ubus

open Lib
open scoped List

variable {held : List Nat} {type : MsgType} {s' : State}
  {cb : Nat → Nat → Attrs → State → Ret × State}

/-- The daemon works on a message of a connected client, and holds its buffer. -/
structure Processing (lib : Libubox) (cl ub : Nat) (hdr : Msghdr) (data : Payload) (s : State) :
    Prop where
  inv : Inv lib [ub] s
  cause : s.cause = .message cl ub hdr data
  client : s.reg.HasClient cl
  safe : Clean lib s.trace → ¬ ((s.net.buf ub).fd ≠ none ∧ hdr.type = MsgType.invoke.code ∧
    AclQuery lib data)
  hdr : (s.net.buf ub).hdr = hdr
  data : (s.net.buf ub).data = data

section

variable (lib : Libubox) {cl ub : Nat} {hdr : Msghdr} {data : Payload} {s : State}

theorem Processing.handling {lib : Libubox} (ctx : Processing lib cl ub hdr data s) :
    Handling s.net.Kept cl ub hdr data s where
  on := Or.inl ctx.cause
  ready := ctx.inv.ready
  client := ctx.client
  below := ctx.inv.custody.lt_of_held List.mem_cons_self
  free := ctx.inv.posts.free ub List.mem_cons_self
  hdr := ctx.hdr
  data := ctx.data

/-! ### Dispatch -/

theorem MsgType.code_of_ofCode? {code : UInt8} (found : MsgType.ofCode? code = some type) :
    type.code = code := by
  simpa using List.find?_some found

theorem handlers_ret (found : handlers lib type = some cb) (notLookup : type ≠ .lookup)
    (attr : Attrs) : (cb cl ub attr s).1 ≠ .queued := by
  cases type with
  | lookup => exact absurd rfl notLookup
  | hello => cases found
  | monitor => cases found
  | ping =>
    cases found
    simp [ubusdSendPong]
  | addObject =>
    cases found
    unfold ubusdHandleAddObject
    split <;> simp
  | removeObject =>
    cases found
    unfold ubusdHandleRemoveObject
    repeat' split
    all_goals simp
  | invoke =>
    cases found
    unfold ubusdHandleInvoke
    simp only
    repeat' split
    all_goals simp
  | status =>
    cases found
    unfold ubusdHandleResponse
    repeat' split
    all_goals simp
  | data =>
    cases found
    unfold ubusdHandleResponse
    repeat' split
    all_goals simp
  | subscribe =>
    cases found
    unfold ubusdHandleAddWatch
    repeat' split
    all_goals simp
  | unsubscribe =>
    cases found
    unfold ubusdHandleRemoveWatch
    repeat' split
    all_goals simp
  | notify =>
    cases found
    unfold ubusdHandleNotify
    repeat' split
    all_goals simp

theorem handled_of_handlers (ctx : Processing lib cl ub hdr data s)
    (plain : hdr.type ≠ MsgType.status.code → hdr.type ≠ MsgType.invoke.code → (s.net.buf ub).fd = none)
    (typed : type.code = hdr.type) (notLookup : type ≠ .lookup)
    (found : handlers lib type = some cb) :
    Handled lib s.net.Kept ((s.net.buf ub).fd ≠ none ∧ hdr.type = MsgType.invoke.code ∧
      AclQuery lib data) ub s (cb cl ub (ubusParseMsg lib data) s).2 := by
  have handling := ctx.handling
  have free : type ≠ .status → type ≠ .invoke → (s.net.buf ub).fd = none := by
    intro notStatus notInvoke
    refine plain ?_ ?_ <;> rw [← typed]
    · cases type <;> first | decide | exact absurd rfl notStatus
    · cases type <;> first | decide | exact absurd rfl notInvoke
  have safely {leak : Prop} {t : State} (handled : Handled lib s.net.Kept False ub s t) :
      Handled lib s.net.Kept leak ub s t := handled.mono fun absurd => absurd.elim
  cases type with
  | lookup => exact absurd rfl notLookup
  | hello => cases found
  | monitor => cases found
  | ping =>
    cases found
    exact safely (handled_pong lib handling ctx.cause typed.symm _)
  | addObject =>
    cases found
    exact safely (handled_addObject lib handling ctx.cause typed.symm (free (by simp) (by simp)) _)
  | removeObject =>
    cases found
    exact safely (handled_removeObject lib handling ctx.cause typed.symm
      (free (by simp) (by simp)) _)
  | invoke =>
    cases found
    exact (handled_invoke lib handling ctx.cause typed.symm).mono
      fun leak => ⟨leak.1, typed.symm, leak.2⟩
  | status =>
    cases found
    exact safely (handled_response lib handling ctx.cause (Or.inl typed.symm))
  | data =>
    cases found
    exact safely (handled_response lib handling ctx.cause (Or.inr typed.symm))
  | subscribe =>
    cases found
    exact safely (handled_addWatch lib handling _)
  | unsubscribe =>
    cases found
    exact safely (handled_removeWatch lib handling _)
  | notify =>
    cases found
    exact safely (handled_notify lib handling ctx.cause typed.symm (free (by simp) (by simp)))

theorem dispatch_cases (ctx : Processing lib cl ub hdr data s)
    (plain : hdr.type ≠ MsgType.status.code → hdr.type ≠ MsgType.invoke.code →
      (s.net.buf ub).fd = none) :
    ((dispatch lib cl ub s).1 ≠ .queued ∧
      Handled lib s.net.Kept ((s.net.buf ub).fd ≠ none ∧ hdr.type = MsgType.invoke.code ∧
        AclQuery lib data) ub s (dispatch lib cl ub s).2) ∨
    (hdr.type = MsgType.lookup.code ∧ ∃ t path,
      Sends (Emits lib s.cause) (keepAnd s.net.Kept ub) s t ∧
      dispatch lib cl ub s = ubusClientCmdQueueAdd cl ub path t) := by
  have handling := ctx.handling
  unfold dispatch
  rw [State.buf, ctx.hdr, ctx.data]
  rcases kind : MsgType.ofCode? hdr.type with _ | type
  · exact Or.inl ⟨by simp, Handled.refl ctx.inv.good⟩
  have typed := MsgType.code_of_ofCode? kind
  simp only [Option.bind_some]
  rcases found : handlers lib type with _ | cb
  · exact Or.inl ⟨by simp, Handled.refl ctx.inv.good⟩
  by_cases isLookup : type = .lookup
  · subst isLookup
    cases found
    have plain' := plain (by rw [← typed]; decide) (by rw [← typed]; decide)
    simp only [ubusdHandleLookup]
    split
    · obtain ⟨t, sends, ⟨status, done⟩ | ⟨key, parked⟩⟩ :=
        handleLookup_cases lib handling plain' (ubusParseMsg lib data) none
      · rw [done]
        exact Or.inl ⟨by simp,
          (Does.of_sends ctx.inv.good sends).handled fun _ => Or.inl⟩
      · exact Or.inr ⟨typed.symm, t, some key, sends, parked⟩
    · exact Or.inr ⟨typed.symm, s, none, Sends.refl s, rfl⟩
  · exact Or.inl ⟨handlers_ret lib found isLookup _,
      handled_of_handlers lib ctx plain typed isLookup found⟩

/-! ### The status message -/

theorem Inv.retmsg {lib : Libubox} (inv : Inv lib held s) (known : cl ∈ s.net.socks) :
    ∃ retmsg, (s.net.sock cl).retmsg = some retmsg ∧ s.net.Kept retmsg ∧
      (s.net.buf retmsg).hdr.type = MsgType.status.code ∧ (s.net.buf retmsg).hdr.version = 0 := by
  obtain ⟨retmsg, here, type, version⟩ := inv.status cl known (by simp)
  exact ⟨retmsg, here, kept_of_retmsg known here, type, version⟩

/-- The buffers that a message of `cl` leaves alone: those that clients keep, but for the status
message of `cl` itself. -/
def Net.KeptBut (net : Net) (cl ub : Nat) : Prop := net.Kept ub ∧ (net.sock cl).retmsg ≠ some ub

/-- The status message is prepared for the message in `ub`. -/
structure Prepared (cl : Nat) (hdr : Msghdr) (retmsg : Nat) (s : State) : Prop where
  here : (s.net.sock cl).retmsg = some retmsg
  hdr : (s.net.buf retmsg).hdr = { type := MsgType.status.code, seq := hdr.seq, peer := hdr.peer }

theorem setRetmsg_spec {lib : Libubox} (inv : Inv lib held s) (known : cl ∈ s.net.socks)
    (other : (s.net.sock cl).retmsg ≠ some ub) :
    ∃ retmsg, Inv lib held (setRetmsg cl ub s) ∧
      Moved lib (fun other => s.net.KeptBut cl other ∨ other = ub) s (setRetmsg cl ub s) ∧
      Prepared cl (s.net.buf ub).hdr retmsg (setRetmsg cl ub s) ∧
      (setRetmsg cl ub s).reg = s.reg := by
  obtain ⟨retmsg, here, kept, type, version⟩ := inv.retmsg known
  have differs : ub ≠ retmsg := fun same => other (same ▸ here)
  have result : setRetmsg cl ub s = s.mapHdr retmsg fun hdr => { hdr with
      seq := (s.buf ub).hdr.seq, peer := (s.buf ub).hdr.peer } := by
    simp only [setRetmsg, State.sock, here]
  rw [result]
  refine ⟨retmsg, inv.mapBuf rfl rfl rfl (fun _ => rfl) (fun _ => rfl),
    Moved.of_frame (wire_mapBuf_free _ ?_).toFrame, ⟨here, ?_⟩, rfl⟩
  · rintro ((⟨_, notHere⟩ | same) | (⟨_, notHere⟩ | same))
    · exact notHere here
    · exact differs same.symm
    · exact notHere here
    · exact differs same.symm
  · rcases hdr : (s.net.buf retmsg).hdr with ⟨v, t, q, p⟩
    rw [hdr] at type version
    simp only at type version
    simp [State.mapHdr, State.mapBuf, hdr, type, version]

theorem Posts.keptBut {net : Net} (posts : Posts held net) {cl owner other : Nat}
    (known : cl ∈ net.socks) (known' : owner ∈ net.socks) (member : other ∈ (net.sock owner).mail) :
    net.KeptBut cl other := by
  refine ⟨kept_of_mail known' member, fun here => ?_⟩
  have same := posts.owner cl known owner known' other
    (by simp [Sock.posts, here]) (List.mem_append_left _ member)
  subst same
  have nodup := posts.nodup cl known
  rw [Sock.posts, here, Option.toList_some, List.nodup_append] at nodup
  exact nodup.2.2 other member other (List.mem_singleton_self other) rfl

theorem sendStatus_spec {lib : Libubox} {retmsg : Nat} (inv : Inv lib held s)
    (known : cl ∈ s.net.socks) (on : s.cause.On cl ub hdr data)
    (prepared : Prepared cl hdr retmsg s) (status : Status) :
    Inv lib held (sendStatus lib cl status s) ∧
      Moved lib (s.net.KeptBut cl) s (sendStatus lib cl status s) ∧
      (sendStatus lib cl status s).reg = s.reg := by
  have kept := kept_of_retmsg known prepared.here
  set filled := s.mapBuf retmsg fun buf => { buf with data := .built [.int32 .status status.code] }
    with filledDef
  have result : sendStatus lib cl status s = ubusMsgSend lib cl retmsg filled := by
    simp only [sendStatus, State.sock, prepared.here]
    rfl
  have inv' : Inv lib held filled := inv.mapBuf rfl rfl rfl (fun _ => rfl) fun _ => rfl
  have notFree : ¬ (s.net.KeptBut cl retmsg ∨ s.net.KeptBut cl retmsg) := by
    rintro (⟨_, notHere⟩ | ⟨_, notHere⟩) <;> exact notHere prepared.here
  have sent : Wire (Emits lib s.cause) s.net.Kept (s.net.KeptBut cl) filled
      (ubusMsgSend lib cl retmsg filled) := by
    refine wire_send lib ?_ (fun isFree => notFree (Or.inl isFree))
      (inv'.kept_below retmsg kept) (admitsMonitor_emits lib filled.moment) ⟨rfl, ?_⟩
    · rintro other (isKept | isKept)
      exacts [inv'.kept_below other isKept, inv'.kept_below other isKept.1]
    · have emission : Emission lib s.reg s.cause cl _ (.built [.int32 .status status.code]) :=
        .status on
      simpa [filledDef, State.mapBuf, State.moment, prepared.hdr] using emission
  rw [result]
  refine ⟨?_, ?_, sent.reg⟩
  · refine inv'.of_frame sent.rebase ?_ ?_ ?_ ?_ ?_ ?_ inv'.posts.free
    · rw [sent.reg]
      exact inv'.good
    · rw [sent.reg]
    · exact inv'.monitors.congr sent.monitors (by rw [sent.reg])
    · exact fun owner known' other here => kept_of_retmsg known' here
    · exact fun owner known' other member => inv.posts.keptBut known known' member
    · exact inv'.custody.send lib known inv'.known.monitors (Or.inr kept) (by simp)
  · exact Moved.of_frame ((wire_mapBuf_free _ notFree).toFrame.trans
      (sent.mono (fun _ => id) (fun _ => And.left) fun _ => id))

/-! ### A message -/

theorem dropFd_spec (ctx : Processing lib cl ub hdr data s) :
    Processing lib cl ub hdr data (dropFd ub s) ∧ Moved lib s.net.Kept s (dropFd ub s) ∧
      (dropFd ub s).reg = s.reg ∧
      (hdr.type ≠ MsgType.status.code → hdr.type ≠ MsgType.invoke.code →
        ((dropFd ub s).net.buf ub).fd = none) := by
  unfold dropFd
  rw [State.buf, ctx.hdr]
  split
  · have notKept := ctx.inv.posts.free ub List.mem_cons_self
    have frame : Frame (Emits lib s.cause) s.net.Kept s.net.Kept s (ubusMsgCloseFd ub s) :=
      (wire_closeFd _ s).toFrame.trans (wire_mapBuf_free _ (by simpa using notKept)).toFrame
    have live := ctx.inv.custody.live_of_held (List.mem_cons_self (a := ub))
    have custody := ctx.inv.custody.msgCloseFd live (by simp)
    have here : (ubusMsgCloseFd ub s).net.buf ub = { s.net.buf ub with fd := none } := by
      simp [ubusMsgCloseFd, State.mapBuf, Custody.closeFd_buf]
    refine ⟨⟨ctx.inv.of_sends frame custody ctx.inv.posts.free, frame.cause.trans ctx.cause,
      frame.reg.symm ▸ ctx.client, fun _ leaks => leaks.1 (by rw [here]), by rw [here]; exact ctx.hdr,
      by rw [here]; exact ctx.data⟩, Moved.of_frame frame, frame.reg, fun _ _ => by rw [here]⟩
  · rename_i keeps
    exact ⟨ctx, Moved.of_frame (Frame.refl s), rfl, fun notStatus notInvoke =>
      absurd ⟨notStatus, notInvoke⟩ keeps⟩

theorem Inv.queueAdd {lib : Libubox} (inv : Inv lib [ub] s) (known : cl ∈ s.net.socks)
    (plain : (s.net.buf ub).fd = none) (path : Option CString) :
    Inv lib [] (ubusClientCmdQueueAdd cl ub path s).2 := by
  refine inv.addMail (f := fun sock => { sock with
    cmdQueue := sock.cmdQueue ++ [{ msg := ub, lookupPath := path }] }) known plain rfl ?_ rfl rfl
  simp only [Sock.mail, List.map_append, List.map_cons, List.map_nil, List.append_assoc,
    List.cons_append, List.nil_append]
  exact List.perm_middle

theorem Processing.setRetmsg {lib : Libubox} (ctx : Processing lib cl ub hdr data s) :
    ∃ retmsg, Processing lib cl ub hdr data (setRetmsg cl ub s) ∧
      Prepared cl hdr retmsg (setRetmsg cl ub s) ∧
      Moved lib (s.net.KeptBut cl) s (setRetmsg cl ub s) ∧ (setRetmsg cl ub s).reg = s.reg := by
  have known := (ctx.inv.clients cl).mp ctx.client
  obtain ⟨retmsg, inv, moved, prepared, reg⟩ := setRetmsg_spec ctx.inv known
    fun here => ctx.inv.posts.free ub List.mem_cons_self (kept_of_retmsg known here)
  have fd' := moved.fd ub (Or.inr rfl)
  obtain ⟨new, trace, _⟩ := moved.trace
  rw [ctx.hdr] at prepared
  refine ⟨retmsg, ⟨inv, moved.cause.trans ctx.cause, by rw [reg]; exact ctx.client, ?_,
    (moved.hdr ub (Or.inr rfl)).trans ctx.hdr, (moved.data ub (Or.inr rfl)).trans ctx.data⟩,
    prepared, moved.mono fun _ => Or.inl, reg⟩
  intro clean leaks
  refine ctx.safe ?_ ⟨?_, leaks.2⟩
  · rw [trace] at clean
    exact clean.of_append
  · rw [← show _ = (s.net.buf ub).fd from fd']
    exact leaks.1

theorem Prepared.of_moved {lib : Libubox} {retmsg : Nat} {s : State}
    (prepared : Prepared cl hdr retmsg s) (known : cl ∈ s.net.socks)
    (moved : Moved lib s.net.Kept s s') : Prepared cl hdr retmsg s' :=
  ⟨(moved.retmsg cl).trans prepared.here,
    (moved.hdr retmsg (kept_of_retmsg known prepared.here)).trans prepared.hdr⟩

theorem Moved.keptBut_iff {lib : Libubox} {keep : Nat → Prop} {s : State}
    (moved : Moved lib keep s s') (cl other : Nat) :
    s'.net.KeptBut cl other ↔ s.net.KeptBut cl other := by
  rw [Net.KeptBut, moved.kept_iff, show (s'.net.sock cl).retmsg = (s.net.sock cl).retmsg from
    moved.retmsg cl, Net.KeptBut]

theorem Moved.andKept {lib : Libubox} {s s'' : State} (one : Moved lib (s.net.KeptBut cl) s s')
    (two : Moved lib s'.net.Kept s' s'') : Moved lib (s.net.KeptBut cl) s s'' :=
  one.trans (two.mono fun other kept => (one.kept_iff other).mpr kept.1)

/-- What became of a message that was received. -/
inductive Received (lib : Libubox) (cl ub : Nat) (hdr : Msghdr) (data : Payload) (s s' : State) :
    Prop where
  /-- It was handled. -/
  | handled (moved : Moved lib (s.net.KeptBut cl) s s')
  /-- It is a lookup that waits in the command queue. -/
  | queued (t : State) (path : Option CString) (moved : Moved lib (s.net.KeptBut cl) s t)
      (typed : hdr.type = MsgType.lookup.code) (here : (t.net.buf ub).hdr = hdr)
      (payload : (t.net.buf ub).data = data) (result : s' = (ubusClientCmdQueueAdd cl ub path t).2)

theorem finish_spec {retmsg : Nat} (inv : Inv lib [ub] s) (known : cl ∈ s.net.socks)
    (on : s.cause.On cl ub hdr data) (prepared : Prepared cl hdr retmsg s) {ret : Ret}
    (notQueued : ret ≠ .queued) : Inv lib [] (finish lib cl ub ret s) ∧
      Moved lib (s.net.KeptBut cl) s (finish lib cl ub ret s) ∧
      (finish lib cl ub ret s).reg = s.reg := by
  have freed : Frame (Emits lib s.cause) s.net.Kept s.net.Kept s (ubusMsgFree ub s) := (wire_free ub s).toFrame
  have moved := Moved.of_frame freed
  cases ret with
  | queued => exact absurd rfl notQueued
  | silent => exact ⟨inv.free, moved.mono fun _ => And.left, freed.reg⟩
  | done status =>
    have known' := freed.mem_socks known
    obtain ⟨inv', moved', reg⟩ := sendStatus_spec inv.free known' (freed.cause.symm ▸ on)
      (prepared.of_moved known moved) status
    exact ⟨inv', (moved.mono fun _ => And.left).trans (moved'.mono fun other =>
      (moved.keptBut_iff cl other).mpr), reg.trans freed.reg⟩

/-- **`ubusd_proto_receive_message`** keeps the invariant. -/
theorem receiveMessage_spec (ctx : Processing lib cl ub hdr data s) :
    Inv lib [] (ubusdProtoReceiveMessage lib cl ub s) ∧
      (ubusdProtoReceiveMessage lib cl ub s).reg.clients = s.reg.clients ∧
      Received lib cl ub hdr data s (ubusdProtoReceiveMessage lib cl ub s) := by
  have known := (ctx.inv.clients cl).mp ctx.client
  obtain ⟨retmsg, ctx1, prepared1, moved1, reg1⟩ := ctx.setRetmsg
  obtain ⟨ctx2, moved2, reg2, plain⟩ := dropFd_spec lib ctx1
  have unfolded : ubusdProtoReceiveMessage lib cl ub s = finish lib cl ub
      (dispatch lib cl ub (dropFd ub (setRetmsg cl ub s))).1
      (dispatch lib cl ub (dropFd ub (setRetmsg cl ub s))).2 := rfl
  have known1 : cl ∈ (setRetmsg cl ub s).net.socks := moved1.mem_socks known
  have moved12 := moved1.andKept moved2
  have reg12 := reg2.trans reg1
  have prepared2 := prepared1.of_moved known1 moved2
  rw [unfolded]
  set s2 := dropFd ub (setRetmsg cl ub s) with s2Def
  have known2 : cl ∈ s2.net.socks := moved12.mem_socks known
  rcases dispatch_cases lib ctx2 plain with ⟨notQueued, handled⟩ | ⟨typed, t, path, sends, queued⟩
  · have moved13 := moved12.andKept handled.frame
    obtain ⟨inv, moved, reg⟩ := finish_spec lib (ctx2.inv.of_handled handled ctx2.safe)
      (handled.frame.mem_socks known2) (handled.frame.cause.symm ▸ Or.inl ctx2.cause)
      (prepared2.of_moved known2 handled.frame) notQueued
    refine ⟨inv, ?_, .handled (moved13.trans (moved.mono fun other => (moved13.keptBut_iff cl
      other).mpr))⟩
    rw [reg, handled.clients, reg12]
  · have below : Frame (Emits lib s2.cause) s2.net.Kept s2.net.Kept s2 t :=
      sends.frame.mono (fun _ => id) (fun _ => Or.inl) fun _ => Or.inl
    have inv3 : Inv lib [ub] t :=
      ctx2.inv.of_sends below (sends.custody ctx2.inv.custody) ctx2.inv.posts.free
    have plain3 : (t.net.buf ub).fd = none := by
      rw [sends.frame.fd ub (Or.inr rfl)]
      exact plain (by rw [typed]; decide) (by rw [typed]; decide)
    rw [queued]
    refine ⟨inv3.queueAdd (below.mem_socks known2) plain3 path, ?_,
      .queued t path (moved12.andKept (Moved.of_frame below)) typed
        ((sends.frame.hdr ub (Or.inr rfl)).trans ctx2.hdr)
        ((sends.frame.data ub (Or.inr rfl)).trans ctx2.data) rfl⟩
    show t.reg.clients = _
    rw [sends.frame.reg, reg12]

end

end Ubus
