/-
**The stages of a lookup.**

A lookup waits in the command queue of its client until its status has been submitted. A full lookup, one
without a path, is a scan of the path tree that pauses while the transmit queue is not empty.

* `resume_work`, `accept_work`: what is done for a lookup when it is received and when it is resumed.
* `Move.tracked`: a move keeps the stages; `full_lookup_exact` follows for whole runs.
-/

import Ubus.PathLookup
import Ubus.Survey

namespace Ubus

open Lib Relation

/-- A lookup without a path. -/
def Full (lib : Libubox) (data : Payload) : Prop := ubusParseMsg lib data .objpath = none

/-- **A lookup asks for the object with this path.** -/
def Asks (lib : Libubox) (data : Payload) (key : CString) : Prop :=
  ∀ objpath, ubusParseMsg lib data .objpath = some objpath →
    if (lib.blobString objpath).getLast? ≠ some 42 then lib.blobString objpath = key
    else (lib.blobString objpath).dropLast <+: key

theorem mem_found {lib : Libubox} {reg : Registry} {data : Payload} {objpath : Bytes} (good : reg.Ok)
    (named : ubusParseMsg lib data .objpath = some objpath) {key : CString} {obj : Nat}
    (here : (key, obj) ∈ reg.path) (asks : Asks lib data key) :
    (key, obj) ∈ found reg.path (lib.blobString objpath) := by
  have asked := asks objpath named
  unfold found
  split at asked
  · rename_i plain
    have there := (AvlTree.find_eq_some_iff good.paths.unique).mpr here
    rw [if_pos plain, asked, there]
    exact List.mem_singleton_self _
  · rename_i wild
    rw [if_neg wild]
    have range : (reg.path.findGe (lib.blobString objpath).dropLast).takeWhile
        (fun node => (lib.blobString objpath).dropLast.isPrefixOf node.1) =
        reg.path.filter fun node => (lib.blobString objpath).dropLast.isPrefixOf node.1 := by
      unfold AvlTree.findGe
      convert range_eq_filter Prod.fst (lib.blobString objpath).dropLast good.paths.sorted
    rw [range]
    exact List.mem_filter.mpr ⟨here, List.isPrefixOf_iff_prefix.mpr asked⟩

section Work

variable {lib : Libubox} {cl ub : Nat} {cmd : ClientCmd} {s : State}

theorem free_trace (ub : Nat) (s : State) : (ubusMsgFree ub s).trace = s.trace := by
  unfold ubusMsgFree msgRelease closeFd
  split <;> (try split) <;> rfl

theorem resumeCmd_done {status : Status} {u : State} (result : handleLookup lib cl cmd.msg
      (ubusParseMsg lib (s.buf cmd.msg).data) (some cmd) (resuming cl cmd s) = (.done status, u)) :
    resumeCmd lib cl cmd s =
      (ubusClientCmdFree cl (sendStatus lib cl status (setRetmsg cl cmd.msg u)) cmd, true) := by
  unfold resuming at result
  unfold resumeCmd ubusdCmdLookup
  simp only [State.buf] at result ⊢
  rw [result]

theorem resumeCmd_queued {u : State} (result : handleLookup lib cl cmd.msg
      (ubusParseMsg lib (s.buf cmd.msg).data) (some cmd) (resuming cl cmd s) = (.queued, u)) :
    resumeCmd lib cl cmd s = (u, false) := by
  unfold resuming at result
  unfold resumeCmd ubusdCmdLookup
  simp only [State.buf] at result ⊢
  rw [result]

theorem concludes_of_passes (lib : Libubox) {sent : List Nat} {u : State} {hdr : Msghdr}
    (status : Status) (passes : Passes ub sent s u) (ready : StatusReady s.net cl)
    (old : ∀ retmsg, (s.sock cl).retmsg = some retmsg → retmsg < s.net.brk) (below : ub < s.net.brk)
    (here : (s.buf ub).hdr = hdr) (on : s.cause.buf = some ub) (fresh : answers ub s.trace = []) :
    Concluded cl ub hdr status (sendStatus lib cl status (setRetmsg cl ub u)).trace ∧
      passed ub (sendStatus lib cl status (setRetmsg cl ub u)).trace =
        passed ub s.trace ++ sent.map (Prod.mk s.reg) := by
  obtain ⟨retmsg, is, typed, -⟩ := ready
  have earlier := old retmsg is
  have is' : (u.sock cl).retmsg = some retmsg := (passes.sock cl).2.trans is
  have hdr' : (u.buf ub).hdr = hdr := (passes.hdr ub below).trans here
  obtain ⟨v, set⟩ : ∃ v, setRetmsg cl ub u = v := ⟨_, rfl⟩
  have eq : setRetmsg cl ub u = u.mapHdr retmsg fun hdr =>
    { hdr with seq := (u.buf ub).hdr.seq, peer := (u.buf ub).hdr.peer } := setRetmsg_eq is'
  rw [set] at eq ⊢
  have reply : (v.buf retmsg).hdr = { (u.buf retmsg).hdr with seq := hdr.seq, peer := hdr.peer } := by
    rw [← hdr', eq]
    simp [State.mapHdr, State.mapBuf]
  have typed' : (v.buf retmsg).hdr.type = MsgType.status.code := by
    rw [reply]
    exact (congrArg Msghdr.type (passes.hdr retmsg earlier)).trans typed
  have trace : v.trace = u.trace := eq ▸ rfl
  have cause : v.cause = u.cause := eq ▸ rfl
  have ends : Concluded cl ub hdr status (sendStatus lib cl status v).trace ∧
      passed ub (sendStatus lib cl status v).trace = passed ub v.trace :=
    sendStatus_concludes lib status (eq ▸ is') (eq ▸ earlier.trans_le passes.brk) typed' (by rw [reply])
      (by rw [reply]) (by rw [cause, passes.cause, on]) (by rw [trace, passes.answers, fresh])
  rw [ends.2, trace, passes.passed]
  exact ⟨ends.1, rfl⟩

theorem resume_work (inv : Inv lib [] s) (known : s.reg.HasClient cl)
    (first : (s.sock cl).cmdQueue.head? = some cmd) (fresh : answers cmd.msg s.trace = []) :
    ∃ sent : AvlTree CString, (∀ node ∈ sent, node ∈ s.reg.path) ∧
      passed cmd.msg (resumeCmd lib cl cmd s).1.trace =
        passed cmd.msg s.trace ++ (sent.map Prod.snd).map (Prod.mk s.reg) ∧
      ((∃ status, (resumeCmd lib cl cmd s).2 = true ∧
          Concluded cl cmd.msg (s.buf cmd.msg).hdr status (resumeCmd lib cl cmd s).1.trace ∧
          ((resumeCmd lib cl cmd s).1.sock cl).cmdQueue = (s.sock cl).cmdQueue.tail ∧
          (Full lib (s.buf cmd.msg).data → status = .ok ∧ lookupStart s.reg (some cmd) = sent) ∧
          ∀ objpath, ubusParseMsg lib (s.buf cmd.msg).data .objpath = some objpath → status = .ok →
            sent = found s.reg.path (lib.blobString objpath)) ∨
        ∃ node others, (resumeCmd lib cl cmd s).2 = false ∧
          answers cmd.msg (resumeCmd lib cl cmd s).1.trace = [] ∧
          ((resumeCmd lib cl cmd s).1.sock cl).cmdQueue =
            { cmd with lookupPath := some node.1 } :: (s.sock cl).cmdQueue.tail ∧
          ((resumeCmd lib cl cmd s).1.tx cl).txQueue ≠ [] ∧ ((s.tx cl).txQueue = [] → sent ≠ []) ∧
          lookupStart s.reg (some cmd) = sent ++ node :: others) := by
  have socket := (inv.clients cl).mp known
  have below : cmd.msg < s.net.brk := inv.kept_below cmd.msg (kept_of_mail socket (mem_mail_of_head first))
  obtain ⟨-, -, tail⟩ := resumeCmd_spec inv known first
  obtain ⟨sent, listed, -, cases⟩ := handleLookup_eq lib cl cmd.msg
    (ubusParseMsg lib (s.buf cmd.msg).data) (some cmd) (resuming cl cmd s)
  have passes : Passes cmd.msg (sent.map Prod.snd) (resuming cl cmd s)
      (sendObjs lib cl cmd.msg sent (resuming cl cmd s)) :=
    passes_sendObjs lib cl (s := resuming cl cmd s) below sent
  have nothing : sent = [] → ((sendObjs lib cl cmd.msg sent (resuming cl cmd s)).tx cl).txQueue =
      (s.tx cl).txQueue := by
    rintro rfl
    rfl
  generalize sendObjs lib cl cmd.msg sent (resuming cl cmd s) = u at passes cases nothing
  refine ⟨sent, listed, ?_⟩
  rcases cases with ⟨status, result, full, path⟩ | ⟨node, others, full, ahead, busy, result⟩
  · obtain ⟨concluded, shown⟩ := concludes_of_passes lib status passes (inv.status cl socket nofun)
      (fun retmsg is => inv.kept_below retmsg (kept_of_retmsg socket is)) below rfl rfl fresh
    rw [resumeCmd_done result] at tail ⊢
    have trace : (ubusClientCmdFree cl (sendStatus lib cl status (setRetmsg cl cmd.msg u)) cmd).trace =
        (sendStatus lib cl status (setRetmsg cl cmd.msg u)).trace := free_trace ..
    rw [trace]
    exact ⟨shown, Or.inl ⟨status, rfl, concluded, tail rfl, full, fun objpath named ok =>
      (path objpath named).resolve_left fun failed => failed.2 ok⟩⟩
  · have result' : handleLookup lib cl cmd.msg (ubusParseMsg lib (s.buf cmd.msg).data) (some cmd)
        (resuming cl cmd s) = (.queued, setLookupPath cl node.1 u) := result
    rw [resumeCmd_queued result']
    have queue : (u.sock cl).cmdQueue = cmd :: (s.sock cl).cmdQueue.tail :=
      (passes.sock cl).1.trans (List.eq_cons_of_mem_head? first)
    refine ⟨passes.passed, Or.inr ⟨node, others, rfl, passes.answers.trans fresh, ?_, ?_,
      fun idle none => busy ((nothing none).trans idle), ahead⟩⟩
    · simp [setLookupPath, State.mapSock, queue]
    · simpa [setLookupPath, State.mapSock] using busy

theorem prepare_trace (cl ub : Nat) (s : State) :
    (dropFd ub (setRetmsg cl ub s)).trace = s.trace := by
  have set : (setRetmsg cl ub s).trace = s.trace := by
    unfold setRetmsg
    split <;> rfl
  rw [← set]
  unfold dropFd ubusMsgCloseFd closeFd
  split
  · split <;> rfl
  · rfl

/-- The state in which the handler of a received message is called. -/
def prepared (lib : Libubox) (cl ub : Nat) (s : State) : State :=
  dropFd ub (setRetmsg cl ub (ubusdMonitorMessage lib cl ub false (takeMessage cl ub s)))

/-- **A lookup is received**: its handler is called, and the result is passed on. -/
theorem acceptMessage_lookup (inv : Inv lib [] s) (known : s.reg.HasClient cl)
    (pending : (s.rx cl).pendingMsg = some ub) (lookup : (s.buf ub).hdr.type = MsgType.lookup.code) :
    acceptMessage lib cl ub s = finish lib cl ub
      (ubusdHandleLookup lib cl ub (ubusParseMsg lib (s.buf ub).data) (prepared lib cl ub s)).1
      (ubusdHandleLookup lib cl ub (ubusParseMsg lib (s.buf ub).data) (prepared lib cl ub s)).2 ∧
    Processing lib cl ub (s.buf ub).hdr (s.buf ub).data (prepared lib cl ub s) := by
  obtain ⟨processing, -⟩ := acceptMessage_processing inv known pending
  obtain ⟨retmsg, ctx1, -⟩ := processing.setRetmsg
  obtain ⟨ctx2, -⟩ := dropFd_spec lib ctx1
  have ctx : Processing lib cl ub (s.buf ub).hdr (s.buf ub).data (prepared lib cl ub s) := ctx2
  refine ⟨?_, ctx⟩
  have handled : dispatch lib cl ub (prepared lib cl ub s) =
      ubusdHandleLookup lib cl ub (ubusParseMsg lib (s.buf ub).data) (prepared lib cl ub s) := by
    rw [dispatch_lookup lib (by rw [State.buf, ctx.hdr, lookup]), State.buf, ctx.data]
  rw [← handled]
  rfl

theorem prepared_spec (inv : Inv lib [] s) (known : s.reg.HasClient cl)
    (pending : (s.rx cl).pendingMsg = some ub) (fresh : ∀ event ∈ s.trace, event.Silent ub) :
    (prepared lib cl ub s).reg = s.reg ∧
      ((prepared lib cl ub s).sock cl).cmdQueue = (s.sock cl).cmdQueue ∧
      passed ub (prepared lib cl ub s).trace = [] ∧ answers ub (prepared lib cl ub s).trace = [] ∧
      ∃ retmsg, Prepared cl (s.buf ub).hdr retmsg (prepared lib cl ub s) := by
  obtain ⟨processing, frame⟩ := acceptMessage_processing inv known pending
  obtain ⟨retmsg, ctx1, ready, -, reg1⟩ := processing.setRetmsg
  obtain ⟨ctx2, moved2, reg2, -⟩ := dropFd_spec lib ctx1
  have silent : ∀ event ∈ (prepared lib cl ub s).trace, event.Silent ub := by
    unfold prepared
    rw [prepare_trace]
    have told : Wire (Event.Silent ub) (fun _ => False) (fun _ => False) (takeMessage cl ub s)
        (ubusdMonitorMessage lib cl ub false (takeMessage cl ub s)) := by
      refine wire_monitorMessage lib (by simp) fun dest hdr typed version => silent_record ?_
      rw [typed]
      decide
    obtain ⟨records, trace, quiet⟩ := told.trace
    obtain ⟨⟨moment, fd, taken⟩, -⟩ := takeMessage_facts cl ub s
    rw [trace, taken]
    intro event member
    rcases List.mem_append.mp member with record | old
    · exact quiet event record
    · rcases List.mem_cons.mp old with rfl | old
      · exact silent_accept ..
      · exact fresh event old
  refine ⟨reg2.trans (reg1.trans frame.reg), ?_, ?_, ?_, retmsg,
    ready.of_moved ((ctx1.inv.clients cl).mp ctx1.client) moved2⟩
  · unfold prepared
    rw [State.sock, (mails_prepare cl ub _).cmdQueue, frame.cmdQueue]
    exact (takeMessage_facts cl ub s).2.2.2.1
  · rw [← List.append_nil (prepared lib cl ub s).trace, passed_of_silent silent]
    rfl
  · rw [← List.append_nil (prepared lib cl ub s).trace, answers_of_silent silent]
    rfl

theorem accept_work (inv : Inv lib [] s) (known : s.reg.HasClient cl)
    (pending : (s.rx cl).pendingMsg = some ub) (lookup : (s.buf ub).hdr.type = MsgType.lookup.code)
    (fresh : ∀ event ∈ s.trace, event.Silent ub) :
    ∃ sent : AvlTree CString, (∀ node ∈ sent, node ∈ s.reg.path) ∧
      passed ub (acceptMessage lib cl ub s).trace = (sent.map Prod.snd).map (Prod.mk s.reg) ∧
      ((∃ status, Concluded cl ub (s.buf ub).hdr status (acceptMessage lib cl ub s).trace ∧
          ((acceptMessage lib cl ub s).sock cl).cmdQueue = (s.sock cl).cmdQueue ∧
          (Full lib (s.buf ub).data → status = .ok ∧ s.reg.path = sent) ∧
          ∀ objpath, ubusParseMsg lib (s.buf ub).data .objpath = some objpath → status = .ok →
            sent = found s.reg.path (lib.blobString objpath)) ∨
        ∃ path, answers ub (acceptMessage lib cl ub s).trace = [] ∧
          ((acceptMessage lib cl ub s).sock cl).cmdQueue = (s.sock cl).cmdQueue ++ [⟨ub, path⟩] ∧
          ((acceptMessage lib cl ub s).tx cl).txQueue ≠ [] ∧
          (path = none ∧ sent = [] ∨
            ∃ node others, path = some node.1 ∧ s.reg.path = sent ++ node :: others)) := by
  obtain ⟨result, ctx⟩ := acceptMessage_lookup inv known pending lookup
  obtain ⟨reg, queue, none, unanswered, retmsg, ready⟩ := prepared_spec inv known pending fresh
  rw [result]
  generalize prepared lib cl ub s = v at ctx reg queue none unanswered ready ⊢
  have socket := (ctx.inv.clients cl).mp ctx.client
  have below : ub < v.net.brk := ctx.handling.below
  unfold ubusdHandleLookup
  by_cases idle : (v.tx cl).txQueue.isEmpty
  · rw [if_pos idle]
    obtain ⟨sent, listed, -, cases⟩ := handleLookup_eq lib cl ub (ubusParseMsg lib (s.buf ub).data) Option.none v
    have passes : Passes ub (sent.map Prod.snd) v (sendObjs lib cl ub sent v) :=
      passes_sendObjs lib cl below sent
    generalize sendObjs lib cl ub sent v = u at passes cases
    refine ⟨sent, reg ▸ listed, ?_⟩
    rcases cases with ⟨status, result, full, path⟩ | ⟨node, others, full, ahead, busy, result⟩
    · rw [result]
      have freed : Wire (fun _ => False) (fun _ => True) (fun _ => False) u (ubusMsgFree ub u) :=
        wire_free ub u
      have old : retmsg < v.net.brk := ctx.inv.kept_below retmsg (kept_of_retmsg socket ready.here)
      have is : ((ubusMsgFree ub u).sock cl).retmsg = some retmsg :=
        (freed.retmsg cl).trans ((passes.sock cl).2.trans ready.here)
      have hdr : ((ubusMsgFree ub u).buf retmsg).hdr =
          { type := MsgType.status.code, seq := (s.buf ub).hdr.seq, peer := (s.buf ub).hdr.peer } :=
        (freed.hdr retmsg trivial).trans ((passes.hdr retmsg old).trans ready.hdr)
      have on : (ubusMsgFree ub u).cause.buf = some ub := by
        rw [freed.cause, passes.cause, ctx.cause]
        rfl
      obtain ⟨concluded, shown⟩ : Concluded cl ub (s.buf ub).hdr status
          (sendStatus lib cl status (ubusMsgFree ub u)).trace ∧ _ :=
        sendStatus_concludes lib status is (old.trans_le (passes.brk.trans freed.brk)) (by rw [hdr])
          (by rw [hdr]) (by rw [hdr]) on (by rw [free_trace, passes.answers, unanswered])
      refine ⟨?_, Or.inl ⟨status, concluded, ?_, fun is => ?_, fun objpath named ok => ?_⟩⟩
      · exact shown.trans (by rw [free_trace, passes.passed, none, List.nil_append, reg])
      · exact ((mails_sendStatus lib cl _ status).cmdQueue cl).trans
          ((freed.cmdQueue cl).trans ((passes.sock cl).1.trans queue))
      · obtain ⟨ok, all⟩ := full is
        exact ⟨ok, reg ▸ all⟩
      · exact reg ▸ (path objpath named).resolve_left fun failed => failed.2 ok
    · have result' : handleLookup lib cl ub (ubusParseMsg lib (s.buf ub).data) Option.none v =
          ubusClientCmdQueueAdd cl ub (some node.1) u := result
      rw [result']
      refine ⟨?_, Or.inr ⟨some node.1, passes.answers.trans unanswered, ?_, ?_,
        Or.inr ⟨node, others, rfl, reg ▸ ahead⟩⟩⟩
      · exact passes.passed.trans (by rw [none, List.nil_append, reg])
      · simp [ubusClientCmdQueueAdd, finish, State.mapSock, ← queue, ← (passes.sock cl).1]
      · simpa [ubusClientCmdQueueAdd, finish, State.mapSock] using busy
  · rw [if_neg idle]
    refine ⟨[], List.forall_mem_nil _, none, Or.inr ⟨Option.none, unanswered, ?_, ?_, Or.inl ⟨rfl, rfl⟩⟩⟩
    · simp [ubusClientCmdQueueAdd, finish, State.mapSock, ← queue]
    · simpa [ubusClientCmdQueueAdd, finish, State.mapSock] using idle

end Work

/-! ### Stages -/

/-- The object was registered when it was passed. -/
def Shown (entry : Registry × Nat) : Prop := entry.1.HasObject entry.2 ∧ named entry ∈ entry.1.path

/-- **How far a lookup has come.** `kept` are objects that have been registered all the time. -/
inductive Stage (lib : Libubox) (kept : CString → Nat → Prop) (cl ub : Nat) (hdr : Msghdr)
    (data : Payload) (s : State) : Prop where
  /-- It waits in the queue of its client, or the client is gone. -/
  | waits (none : answers ub s.trace = [])
      (order : Full lib data → Scan.Ascending ((passed ub s.trace).map named))
      (queued : cl ∈ s.net.socks → ∃ cmd ∈ (s.sock cl).cmdQueue, cmd.msg = ub ∧
        (Full lib data → Scan.Good kept ⟨(passed ub s.trace).map named, cmd.lookupPath⟩))
  /-- It was answered. -/
  | ended (status : Status) (concluded : Concluded cl ub hdr status s.trace)
      (gone : cl ∈ s.net.socks → ∀ cmd ∈ (s.sock cl).cmdQueue, cmd.msg ≠ ub)
      (full : Full lib data → status = .ok ∧ Scan.Ascending ((passed ub s.trace).map named))
      (found : status = .ok → ∀ key obj, kept key obj → Asks lib data key →
        (key, obj) ∈ (passed ub s.trace).map named)

/-- The objects passed were registered, and the lookup is in one of its stages. -/
structure Tracked (lib : Libubox) (kept : CString → Nat → Prop) (cl ub : Nat) (hdr : Msghdr)
    (data : Payload) (s : State) : Prop where
  shown : ∀ entry ∈ passed ub s.trace, Shown entry ∧ ∀ key, kept key entry.2 → (named entry).1 = key
  stage : Stage lib kept cl ub hdr data s

section Tracking

variable {lib : Libubox} {kept : CString → Nat → Prop} {cl ub : Nat} {hdr : Msghdr} {data : Payload}
  {cmd : ClientCmd} {s s' : State}

theorem map_named {reg : Registry} (good : reg.Ok) {sent : AvlTree CString}
    (listed : ∀ node ∈ sent, node ∈ reg.path) (still : ∀ key obj, kept key obj → (key, obj) ∈ reg.path) :
    ((sent.map Prod.snd).map (Prod.mk reg)).map named = sent ∧
      ∀ entry ∈ (sent.map Prod.snd).map (Prod.mk reg),
        Shown entry ∧ ∀ key, kept key entry.2 → (named entry).1 = key := by
  have name : ∀ node ∈ sent, named (reg, node.2) = node := by
    intro node member
    have path := ((good.paths.mem_iff node.1 node.2).mp (listed node member)).2
    simp [named, path]
  refine ⟨?_, fun entry member => ?_⟩
  · rw [List.map_map, List.map_map]
    exact (List.map_congr_left fun node member => name node member).trans (List.map_id' sent)
  obtain ⟨obj, inside, rfl⟩ := List.mem_map.mp member
  obtain ⟨node, inside', rfl⟩ := List.mem_map.mp inside
  have here := listed node inside'
  refine ⟨⟨((good.paths.mem_iff node.1 node.2).mp here).1, (name node inside').symm ▸ here⟩,
    fun key is => ?_⟩
  simp [named, ((good.paths.mem_iff key node.2).mp (still key node.2 is)).2]

theorem Tracked.silent {new : List Event} (tracked : Tracked lib kept cl ub hdr data s)
    (trace : s'.trace = new ++ s.trace) (silent : ∀ event ∈ new, event.Silent ub)
    (queue : cl ∈ s'.net.socks → cl ∈ s.net.socks ∧ ∀ cmd, cmd.msg = ub →
      (cmd ∈ (s'.sock cl).cmdQueue ↔ cmd ∈ (s.sock cl).cmdQueue)) :
    Tracked lib kept cl ub hdr data s' := by
  have same : passed ub s'.trace = passed ub s.trace := trace ▸ passed_of_silent silent s.trace
  refine ⟨same ▸ tracked.shown, ?_⟩
  cases tracked.stage with
  | waits none order queued =>
    refine .waits ?_ (same ▸ order) fun known => ?_
    · rw [trace, answers_of_silent silent, none]
    · obtain ⟨known', keeps⟩ := queue known
      obtain ⟨cmd, member, is, good⟩ := queued known'
      exact ⟨cmd, (keeps cmd is).mpr member, is, same ▸ good⟩
  | ended status concluded gone full found =>
    refine .ended status (trace ▸ concluded.mono silent) (fun known cmd member is => ?_) (same ▸ full)
      (same ▸ found)
    obtain ⟨known', keeps⟩ := queue known
    exact gone known' cmd ((keeps cmd is).mp member) is

theorem lookupStart_ahead (reg : Registry) (cmd : ClientCmd) (seen : List (CString × Nat)) :
    lookupStart reg (some cmd) = Scan.ahead ⟨seen, cmd.lookupPath⟩ reg.path := by
  unfold lookupStart Scan.ahead
  rw [Option.bind_some]
  cases cmd.lookupPath <;> rfl

theorem queue_unique (inv : Inv lib [] s) (known : cl ∈ s.net.socks)
    (first : (s.sock cl).cmdQueue.head? = some cmd) :
    (∀ other ∈ (s.sock cl).cmdQueue, other.msg = cmd.msg → other = cmd) ∧
      ∀ other ∈ (s.sock cl).cmdQueue.tail, other.msg ≠ cmd.msg := by
  have queue := List.eq_cons_of_mem_head? first
  have nodup := inv.posts.nodup cl known
  unfold Sock.posts Sock.mail at nodup
  rw [show (s.net.sock cl).cmdQueue = _ from queue, List.map_cons] at nodup
  have apart := (List.nodup_cons.mp ((List.nodup_append.mp (List.nodup_append.mp nodup).1).1)).1
  have later : ∀ other ∈ (s.sock cl).cmdQueue.tail, other.msg ≠ cmd.msg := fun other member same =>
    apart (same ▸ List.mem_map_of_mem member)
  refine ⟨fun other member same => ?_, later⟩
  rw [queue] at member
  rcases List.mem_cons.mp member with rfl | member
  · rfl
  · exact absurd same (later other member)

/-- **The lookup is resumed.** -/
theorem Tracked.resume (tracked : Tracked lib kept cl cmd.msg (s.buf cmd.msg).hdr (s.buf cmd.msg).data s)
    (inv : Inv lib [] s) (known : s.reg.HasClient cl)
    (first : (s.sock cl).cmdQueue.head? = some cmd)
    (still : ∀ key obj, kept key obj → (key, obj) ∈ s.reg.path) :
    Tracked lib kept cl cmd.msg (s.buf cmd.msg).hdr (s.buf cmd.msg).data (resumeCmd lib cl cmd s).1 := by
  have socket := (inv.clients cl).mp known
  have member : cmd ∈ (s.sock cl).cmdQueue := List.mem_of_head? first
  obtain ⟨unique, later⟩ := queue_unique inv socket first
  have sorted := inv.good.paths.sorted
  have keys := inv.good.paths.unique
  cases tracked.stage with
  | ended status concluded gone full found => exact absurd rfl (gone socket cmd member)
  | waits none order queued =>
    obtain ⟨cmd', member', is, good⟩ := queued socket
    obtain rfl := unique cmd' member' is
    obtain ⟨sent, listed, shown, outcome⟩ := resume_work inv known first none
    obtain ⟨names, entries⟩ := map_named inv.good listed still
    have seen : (passed cmd'.msg (resumeCmd lib cl cmd' s).1.trace).map named =
        (passed cmd'.msg s.trace).map named ++ sent := by
      rw [shown, List.map_append, names]
    refine ⟨fun entry inside => ?_, ?_⟩
    · rw [shown] at inside
      rcases List.mem_append.mp inside with old | new
      · exact tracked.shown entry old
      · exact entries entry new
    have advance : ∀ next rest, lookupStart s.reg (some cmd') = sent ++ rest →
        (∀ node ∈ rest.head?, next = some node.1) → Scan.Advance s.reg.path
          ⟨(passed cmd'.msg s.trace).map named, cmd'.lookupPath⟩
          ⟨(passed cmd'.msg (resumeCmd lib cl cmd' s).1.trace).map named, next⟩ rest :=
      fun _ _ ahead next => ⟨⟨sent, lookupStart_ahead .. ▸ ahead, seen⟩, next⟩
    obtain ⟨status, -, concluded, queue, full, path⟩ | ⟨node, others, -, unanswered, queue, -, -, ahead⟩ :=
      outcome
    · have ends : Full lib (s.buf cmd'.msg).data → status = .ok ∧ Scan.Advance s.reg.path
          ⟨(passed cmd'.msg s.trace).map named, cmd'.lookupPath⟩
          ⟨(passed cmd'.msg (resumeCmd lib cl cmd' s).1.trace).map named, Option.none⟩ [] := fun isFull =>
        ⟨(full isFull).1, advance Option.none [] (by rw [(full isFull).2, List.append_nil]) nofun⟩
      refine .ended status concluded (fun _ other inside => later other (queue ▸ inside))
        (fun isFull => ⟨(ends isFull).1, (good isFull).order_advance sorted keys (ends isFull).2⟩)
        fun ok key obj is asks => ?_
      rcases lookup : ubusParseMsg lib (s.buf cmd'.msg).data .objpath with _ | objpath
      · exact (good lookup).finish sorted (ends lookup).2 still is
      · rw [seen, path objpath lookup ok]
        exact List.mem_append_right _ (mem_found inv.good lookup (still key obj is) asks)
    · have pauses := advance (some node.1) (node :: others) ahead fun other is => by cases is; rfl
      refine .waits unanswered (fun isFull => (good isFull).order_advance sorted keys pauses) fun _ =>
        ⟨{ cmd' with lookupPath := some node.1 }, queue ▸ List.mem_cons_self, rfl, fun isFull => ?_⟩
      exact (good isFull).advance sorted keys pauses still rfl

/-- **The lookup is received.** -/
theorem tracked_accept (inv : Inv lib [] s) (known : s.reg.HasClient cl)
    (pending : (s.rx cl).pendingMsg = some ub) (lookup : (s.buf ub).hdr.type = MsgType.lookup.code)
    (fresh : ∀ event ∈ s.trace, event.Silent ub)
    (still : ∀ key obj, kept key obj → (key, obj) ∈ s.reg.path) :
    Tracked lib kept cl ub (s.buf ub).hdr (s.buf ub).data (acceptMessage lib cl ub s) := by
  have socket := (inv.clients cl).mp known
  have sorted := inv.good.paths.sorted
  have keys := inv.good.paths.unique
  obtain ⟨sent, listed, shown, outcome⟩ := accept_work inv known pending lookup fresh
  obtain ⟨names, entries⟩ := map_named inv.good listed still
  generalize acceptMessage lib cl ub s = s' at shown outcome ⊢
  have seen : (passed ub s'.trace).map named = [] ++ sent := by
    rw [shown, names, List.nil_append]
  refine ⟨shown ▸ entries, ?_⟩
  have start : Scan.Good kept ({} : Scan CString) := Scan.good_start kept
  obtain ⟨status, concluded, queue, full, found⟩ | ⟨path, unanswered, queue, -, place⟩ := outcome
  · have ends : Full lib (s.buf ub).data → status = .ok ∧ Scan.Advance s.reg.path {}
        ⟨(passed ub s'.trace).map named, none⟩ [] := fun isFull =>
      ⟨(full isFull).1, ⟨sent, by rw [List.append_nil]; exact (full isFull).2, seen⟩, nofun⟩
    refine .ended status concluded (fun _ other inside same => ?_)
      (fun isFull => ⟨(ends isFull).1, start.order_advance sorted keys (ends isFull).2⟩)
      fun ok key obj is asks => ?_
    · rw [queue] at inside
      have nodup := inv.posts.nodup cl socket
      rw [Sock.posts, Sock.mail, show (s.net.sock cl).rx.pendingMsg = some ub from pending] at nodup
      exact (List.nodup_append.mp (List.nodup_append.mp nodup).1).2.2 ub (same ▸ List.mem_map_of_mem inside)
        ub (List.mem_singleton_self _) rfl
    · rcases lookup : ubusParseMsg lib (s.buf ub).data .objpath with _ | objpath
      · exact start.finish sorted (ends lookup).2 still is
      · rw [seen, found objpath lookup ok]
        exact mem_found inv.good lookup (still key obj is) asks
  · have good : Scan.Good kept ⟨(passed ub s'.trace).map named, path⟩ := by
      rcases place with ⟨rfl, rfl⟩ | ⟨node, others, rfl, ahead⟩
      · rw [seen]
        exact start
      · exact start.advance sorted keys ⟨⟨sent, ahead, seen⟩, fun other is => by cases is; rfl⟩ still rfl
    refine .waits unanswered (fun _ => good.order) fun _ => ⟨⟨ub, path⟩, ?_, rfl, fun _ => good⟩
    rw [queue]
    exact List.mem_append_right _ (List.mem_singleton_self _)

theorem eq_of_nodup_filterMap {α β : Type} {f : α → Option β} {xs : List α}
    (nodup : (xs.filterMap f).Nodup) {x y : α} {z : β} (here : x ∈ xs) (there : y ∈ xs) (fx : f x = some z)
    (fy : f y = some z) : x = y := by
  induction xs with
  | nil => cases here
  | cons first rest ih =>
    have none : ∀ other ∈ rest, f other = some z → f first ≠ some z := by
      intro other member is same
      rw [List.filterMap_cons_some same, List.nodup_cons] at nodup
      exact nodup.1 (List.mem_filterMap.mpr ⟨other, member, is⟩)
    rcases List.mem_cons.mp here with rfl | inside <;> rcases List.mem_cons.mp there with rfl | inside'
    · rfl
    · exact absurd fx (none y inside' fy)
    · exact absurd fy (none x inside fx)
    · refine ih (nodup.sublist ?_) inside inside'
      exact (List.sublist_cons_self first rest).filterMap f

theorem Ledger.accepted_unique {cl' : Nat} {hdr' : Msghdr} {data' : Payload} (ledger : Ledger s)
    (one : Accepted s.trace cl ub hdr data) (two : Accepted s.trace cl' ub hdr' data') :
    cl = cl' ∧ hdr = hdr' ∧ data = data' := by
  obtain ⟨moment, fd, member⟩ := one
  obtain ⟨moment', fd', member'⟩ := two
  have same := eq_of_nodup_filterMap ledger.once member member' rfl rfl
  cases same
  exact ⟨rfl, rfl, rfl⟩

theorem Cause.on_of_buf {cause : Cause} (is : cause.buf = some ub) :
    ∃ cl hdr data, cause.On cl ub hdr data := by
  cases cause with
  | message cl msg hdr data =>
    cases is
    exact ⟨cl, hdr, data, Or.inl rfl⟩
  | resume cl msg hdr data =>
    cases is
    exact ⟨cl, hdr, data, Or.inr rfl⟩
  | idle => cases is
  | connect => cases is
  | disconnect => cases is
  | aclLoad => cases is

/-- **A move keeps track of a lookup.** -/
theorem Move.tracked (move : Move lib s s') (inv : Inv lib [] s) (ledger : Ledger s)
    (accepted : Accepted s.trace cl ub hdr data) (old : cl < s.reg.brk)
    (still : ∀ key obj, kept key obj → (key, obj) ∈ s.reg.path)
    (tracked : Tracked lib kept cl ub hdr data s) : Tracked lib kept cl ub hdr data s' := by
  have here : cl ∈ s'.net.socks → cl ∈ s.net.socks := fun known => by
    have has := ((move.inv inv).clients cl).mpr known
    exact (inv.clients cl).mp (((move.change inv).clients.2 cl has).resolve_right old.ne)
  have of_reads : ∀ {client t}, Reads client s t → (cl ∈ t.net.socks → cl ∈ s.net.socks ∧ ∀ cmd,
      cmd.msg = ub → (cmd ∈ (t.sock cl).cmdQueue ↔ cmd ∈ (s.sock cl).cmdQueue)) := by
    intro client t reads known
    refine ⟨reads.socks ▸ known, fun cmd _ => ?_⟩
    by_cases same : cl = client
    · rw [same, State.sock, reads.cmdQueue]
    · rw [State.sock, (reads.rests cl same).cmdQueue]
  have received : ub ∈ acceptedBufs s.trace := by
    obtain ⟨moment, fd, member⟩ := accepted
    exact List.mem_filterMap.mpr ⟨_, member, rfl⟩
  cases move.turn inv with
  | idle cause plain trace brk rests =>
    obtain ⟨new, trace, emits⟩ := trace
    refine tracked.silent trace (fun event member => silent_of_emits (emits event member) fun is => ?_)
      fun known => ⟨here known, fun cmd _ => ?_⟩
    · obtain ⟨cl', hdr', data', on⟩ := Cause.on_of_buf is
      exact plain _ _ _ _ on
    · rcases rests cl known with rests | ⟨new, -⟩
      · rw [State.sock, rests.cmdQueue]
      · exact absurd (here known) new
  | header client out known empty room result reads =>
    have unlogged : s'.trace = [] ++ s.trace := reads.trace
    exact tracked.silent unlogged (List.forall_mem_nil _) (of_reads reads)
  | body client msg count known pending less result reads =>
    have unlogged : s'.trace = [] ++ s.trace := reads.trace
    exact tracked.silent unlogged (List.forall_mem_nil _) (of_reads reads)
  | accept client msg t known pending complete reads inv' result accepts =>
    have socket := (inv.clients client).mp known
    have apart : msg ≠ ub := fun same => (ledger.filed client socket).pending msg pending (same ▸ received)
    obtain ⟨new, moment, fd, trace, emits⟩ := accepts.trace
    rw [reads.trace, ← List.singleton_append, ← List.append_assoc] at trace
    refine tracked.silent trace (fun event member => ?_) fun inside => ⟨here inside, fun cmd is => ?_⟩
    · rcases List.mem_append.mp member with member | member
      · exact silent_of_emits (emits event member) fun same => apart (Option.some.inj same)
      · rw [List.mem_singleton.mp member]
        exact silent_accept ..
    · rw [← ((of_reads reads) (by rw [reads.socks]; exact here inside)).2 cmd is]
      by_cases same : cl = client
      · rw [same]
        rcases accepts.queue with queue | ⟨path, queue, -⟩
        · rw [State.sock, queue]
        · rw [State.sock, queue, List.mem_append, List.mem_singleton]
          exact or_iff_left fun added => apart (by rw [← is, added])
      · rw [State.sock, (accepts.rests cl same).cmdQueue]
  | resume client cmd known first result resumes =>
    have socket := (inv.clients client).mp known
    by_cases same : cmd.msg = ub
    · have queued := ((ledger.filed client socket).queued cmd (List.mem_of_head? first)).1
      subst same
      obtain ⟨rfl, rfl, rfl⟩ := ledger.accepted_unique accepted queued
      exact result ▸ tracked.resume inv known first still
    · obtain ⟨new, trace, emits⟩ := resumes.trace
      refine tracked.silent trace (fun event member => silent_of_emits (emits event member)
        fun is => same (Option.some.inj is)) fun inside => ⟨here inside, fun other is => ?_⟩
      by_cases on : cl = client
      · have queue : (s.sock cl).cmdQueue = cmd :: (s.sock cl).cmdQueue.tail :=
          List.eq_cons_of_mem_head? (on ▸ first)
        have apart : ∀ cmd' : ClientCmd, cmd'.msg = cmd.msg → other ≠ cmd' := fun cmd' msg eq =>
          same (by rw [← msg, ← eq, is])
        rw [queue, List.mem_cons, or_iff_right (apart cmd rfl)]
        rcases resumes.queue with queue' | ⟨key, queue'⟩
        · rw [State.sock, on, queue']
        · rw [State.sock, on, queue', List.mem_cons]
          exact or_iff_right (apart _ rfl)
      · rw [State.sock, (resumes.rests cl on).cmdQueue]

theorem silent_of_unaccepted (inv : Inv lib [] s) (ledger : Ledger s) (fresh : ub ∉ acceptedBufs s.trace) :
    ∀ event ∈ s.trace, event.Silent ub := by
  have other : ∀ event ∈ s.trace, ∀ cause : Cause,
      (∀ cl hdr data, cause.On cl ub hdr data → event.For cl ub hdr data) → cause.buf ≠ some ub := by
    intro event member cause works is
    obtain ⟨cl, hdr, data, on⟩ := Cause.on_of_buf is
    obtain ⟨moment, fd, entry⟩ := ledger.worked event member cl ub hdr data (works cl hdr data on)
    exact fresh (List.mem_filterMap.mpr ⟨_, entry, rfl⟩)
  intro event member
  have listed := inv.trace event member
  cases event with
  | accept => exact silent_accept ..
  | submit moment => exact silent_of_emits listed (other _ member moment.cause fun _ _ _ on => on)
  | sendObj moment client msg obj =>
    have emits : Emits lib moment.cause (.sendObj moment client msg obj) := listed
    exact silent_of_emits emits (other _ member moment.cause fun _ _ _ on => on)

/-- **The move in which a message is received.** -/
theorem Move.receives (move : Move lib s s') (inv : Inv lib [] s) (fresh : ub ∉ acceptedBufs s.trace)
    (accepted : Accepted s'.trace cl ub hdr data) : ∃ t, Reads cl s t ∧ Inv lib [] t ∧
      t.reg.HasClient cl ∧ (t.rx cl).pendingMsg = some ub ∧ hdr = (t.buf ub).hdr ∧
      data = (t.buf ub).data ∧ s' = acceptMessage lib cl ub t := by
  obtain ⟨moment, fd, entry⟩ := accepted
  have old : .accept moment cl ub hdr data fd ∉ s.trace := fun member =>
    fresh (List.mem_filterMap.mpr ⟨_, member, rfl⟩)
  have unlisted : ∀ {new cause}, s'.trace = new ++ s.trace → ¬ ∀ event ∈ new, Emits lib cause event := by
    intro new cause trace emits
    rw [trace] at entry
    exact emits _ ((List.mem_append.mp entry).resolve_right old)
  cases move.turn inv with
  | idle cause plain trace =>
    obtain ⟨new, trace, emits⟩ := trace
    exact absurd emits (unlisted trace)
  | header client out known empty room result reads => exact absurd (reads.trace ▸ entry) old
  | body client msg count known pending less result reads => exact absurd (reads.trace ▸ entry) old
  | resume client cmd known first result resumes =>
    obtain ⟨new, trace, emits⟩ := resumes.trace
    exact absurd emits (unlisted trace)
  | accept client msg t known pending complete reads inv' result accepts =>
    obtain ⟨new, moment', fd', trace, emits⟩ := accepts.trace
    rw [trace, reads.trace] at entry
    rcases List.mem_append.mp entry with member | member
    · exact (emits _ member).elim
    cases (List.mem_cons.mp member).resolve_right old
    refine ⟨t, reads, inv', reads.reg ▸ known, ?_, rfl, rfl, result⟩
    rcases complete with ⟨rfl, -⟩ | ⟨count, rfl, -⟩
    · exact pending
    · exact pending_gotBody pending count

theorem moves_tracked (reachable : Reachable lib s) (accepted : Accepted s.trace cl ub hdr data)
    (old : cl < s.reg.brk) (tracked : Tracked lib kept cl ub hdr data s)
    (path : ReflTransGen (MoveIn lib fun t => ∀ key obj, kept key obj → (key, obj) ∈ t.reg.path) s s') :
    Tracked lib kept cl ub hdr data s' ∧ Accepted s'.trace cl ub hdr data := by
  induction path with
  | refl => exact ⟨tracked, accepted⟩
  | @tail t u before move ih =>
    obtain ⟨tracked', accepted'⟩ := ih
    have reachable' : Reachable lib t := reachable.trans (MoveIn.moves before)
    have inv := reachable'.inv
    have old' : cl < t.reg.brk := old.trans_le (moves_clients reachable (MoveIn.moves before)).1
    exact ⟨move.1.tracked inv reachable'.ledger accepted' old' move.2 tracked',
      accepted'.mono (move.1.turn inv).trace_grows⟩

/-- **A lookup from its reception on.** -/
theorem tracked_receives (reachable : Reachable lib s) (receives : Move lib s s')
    (fresh : ub ∉ acceptedBufs s.trace) (accepted : Accepted s'.trace cl ub hdr data)
    (lookup : hdr.type = MsgType.lookup.code)
    (still : ∀ key obj, kept key obj → (key, obj) ∈ s.reg.path) :
    Tracked lib kept cl ub hdr data s' ∧ cl < s'.reg.brk := by
  have inv := reachable.inv
  obtain ⟨t, reads, inv', known, pending, rfl, rfl, rfl⟩ := receives.receives inv fresh accepted
  refine ⟨tracked_accept inv' known pending lookup ?_ (reads.reg ▸ still), ?_⟩
  · rw [reads.trace]
    exact silent_of_unaccepted inv reachable.ledger fresh
  · exact (inv'.good.clients.lt_of_has known).trans_le (reads.reg ▸ (receives.change inv).clients.1)

theorem count_passed {entries : List (Registry × Nat)} {key : CString} {obj : Nat}
    (order : Scan.Ascending (entries.map named)) (member : (key, obj) ∈ entries.map named)
    (same : ∀ entry ∈ entries, entry.2 = obj → (named entry).1 = key) :
    (entries.map Prod.snd).count obj = 1 := by
  have nodup : (entries.map named).Nodup := order.imp fun less eq => (congrArg Prod.fst eq ▸ less).false
  rw [← List.count_eq_one_of_mem nodup member, List.count, List.count, List.countP_map, List.countP_map]
  refine List.countP_congr fun entry inside => ?_
  have is : (named entry).2 = entry.2 := rfl
  constructor
  · intro eq
    have eq' : entry.2 = obj := by simpa using eq
    have pair : named entry = (key, obj) := Prod.ext (same entry inside eq') eq'
    simp [pair]
  · intro eq
    have pair : named entry = (key, obj) := by simpa using eq
    simpa [is] using congrArg Prod.snd pair

/-- Two objects are added, and a full lookup is sent, of which the last byte is not read yet. -/
def pausedRun : List Input :=
  [connects rootCred 5000,
    receives 3 (Blob.message .addObject 1 0 [.string .objpath (cstr "a"), .nest .signature []]) false,
    receives 3 (Blob.message .addObject 2 0 [.string .objpath (cstr "b"), .nest .signature []]) false,
    { action := .client 3 false false (Blob.message .lookup 3 0 []) [] [.got 10 false, .again] }]

end Tracking

end Ubus
