/-
**A lookup goes as on the bus.**

A lookup is handled at once, or it waits in the command queue of its client and is resumed there, as
often as the transmit queue fills up.

* `looks_handleLookup`: `__ubusd_handle_lookup` is a lookup of the bus.
* `goes_receiveLookup`, `goes_resumeCmd`: a lookup that is received, and one that is resumed, with the
  place at which it then waits.
-/

import Ubus.Effects
import Ubus.Io
import Ubus.Serve

namespace Ubus

open Lib

section Lookups

variable (lib : Libubox) {s : State} {b : Bus} {cl ub : Nat} {hdr : Msghdr} {data : Payload}

theorem shows_sendObj (shows : Shows s b) (holds : Holds ub hdr data s) (obj : Nat) :
    Shows (ubusdSendObj lib cl ub obj s) (b.sendObj lib cl hdr obj) ∧
      Holds ub hdr data (ubusdSendObj lib cl ub obj s) := by
  have logged : Shows (s.log (.sendObj s.moment cl ub obj)) b := (quiet_log rfl s).shows shows
  have holds' : Holds ub hdr data (s.log (.sendObj s.moment cl ub obj)) :=
    ⟨holds.below, holds.hdr, holds.data⟩
  unfold ubusdSendObj Bus.sendObj
  simp only [logged.reg]
  cases (b.reg.object obj).type with
  | none => exact ⟨logged, holds'⟩
  | some type =>
    simp only
    split
    · exact ⟨logged, holds'⟩
    · exact ⟨shows_reply lib logged holds' _ (by decide) _, holds'.fromBlob lib _ _ _⟩

theorem bus_sendObj (cl : Nat) (below : ub < s.net.brk) (obj : Nat) :
    (ubusdSendObj lib cl ub obj s).bus =
      if s.calloc.1 then s.bus.sendObj lib cl (s.buf ub).hdr obj else s.bus := by
  generalize logged : s.log (.sendObj s.moment cl ub obj) = t
  have quiet : Quiet s t := logged ▸ quiet_log rfl s
  have same : t.reg = s.reg ∧ t.calloc.1 = s.calloc.1 ∧ t.net = s.net := by
    rw [← logged]
    refine ⟨rfl, ?_, rfl⟩
    unfold State.calloc State.log
    cases s.allocs <;> rfl
  obtain ⟨reg, called, net⟩ := same
  unfold ubusdSendObj Bus.sendObj
  simp only [logged, reg, show s.bus.reg = s.reg from rfl]
  cases (s.reg.object obj).type with
  | none => rw [ite_self, quiet.bus]
  | some type =>
    simp only
    split
    · rw [ite_self, quiet.bus]
    · rw [bus_fromBlob lib cl (by decide) _ (by rwa [net]), called, quiet.bus]
      simp only [State.buf, net]

theorem shows_sendObjs (shows : Shows s b) (holds : Holds ub hdr data s) (nodes : AvlTree CString) :
    Shows (sendObjs lib cl ub nodes s) (b.sendObjs lib cl hdr nodes) ∧
      Holds ub hdr data (sendObjs lib cl ub nodes s) :=
  Shows.foldl (fun _ t => Holds ub hdr data t) nodes
    (fun _ _ node _ shows holds => shows_sendObj lib shows holds node.2) shows holds

theorem lookupStart_eq (reg : Registry) (cmd : Option ClientCmd) :
    lookupStart reg cmd = reg.pathsFrom (cmd.bind ClientCmd.lookupPath) := by
  unfold lookupStart Registry.pathsFrom
  split <;> simp only [*]

/-- What a lookup leaves in the state it has reached, for each outcome. -/
def lookupEnd (cl ub : Nat) (resumed : Bool) (outcome : Bus.Outcome) (t : State) : Ret × State :=
  match outcome with
  | .finished status => (.done status, t)
  | .waits key => if resumed then (.queued, setLookupPath cl key t)
      else ubusClientCmdQueueAdd cl ub (some key) t

theorem shows_find (cl : Nat) (shows : Shows s b) (holds : Holds ub hdr data s) (cmd : Option ClientCmd)
    {objpath : Bytes} (named : ubusParseMsg lib data .objpath = some objpath) :
    ∃ t, handleLookup lib cl ub (ubusParseMsg lib data) cmd s =
        (.done (b.find lib cl hdr (lib.blobString objpath)).1, t) ∧
      Shows t (b.find lib cl hdr (lib.blobString objpath)).2 ∧ Holds ub hdr data t := by
  unfold handleLookup Bus.find
  simp only [named, shows.reg]
  split
  · exact ⟨s, rfl, shows, holds⟩
  split
  · cases b.reg.path.find (lib.blobString objpath) with
    | none => exact ⟨s, rfl, shows, holds⟩
    | some obj => exact ⟨_, rfl, shows_sendObj lib shows holds obj⟩
  · split
    · exact ⟨s, rfl, shows, holds⟩
    · exact ⟨_, rfl, shows_sendObjs lib shows holds _⟩

theorem mails_find (cl ub : Nat) {attr : Attrs} {objpath : Bytes} (named : attr .objpath = some objpath)
    (cmd : Option ClientCmd) (s : State) :
    Mails s.reg s (handleLookup lib cl ub attr cmd s).2 := by
  obtain ⟨sent, -, -, ⟨status, result, -⟩ | ⟨node, others, full, -⟩⟩ := handleLookup_eq lib cl ub attr cmd s
  · rw [result]
    exact (acts_sendObjs cl ub sent s : Acts lib Nothing _ s _).mails
  · rw [named] at full
    cases full

/-- **A lookup goes as on the bus.** -/
theorem looks_handleLookup (shows : Shows s b) (holds : Holds ub hdr data s)
    (cmd : Option ClientCmd) : ∃ outcome t b',
      handleLookup lib cl ub (ubusParseMsg lib data) cmd s = lookupEnd cl ub cmd.isSome outcome t ∧
      b.Looks lib cl hdr data (cmd.bind ClientCmd.lookupPath) outcome b' ∧ Shows t b' ∧
      Holds ub hdr data t ∧ Mails s.reg s t := by
  rcases named : ubusParseMsg lib data .objpath with _ | objpath
  · obtain ⟨sent, rest, split', loop, -, -⟩ :=
      lookupLoop_eq lib cl ub cmd.isSome (lookupStart s.reg cmd) s
    obtain ⟨shows', holds'⟩ : Shows (sendObjs lib cl ub sent s) (b.sendObjs lib cl hdr sent) ∧ _ :=
      shows_sendObjs lib shows holds sent
    have mails : Mails s.reg s (sendObjs lib cl ub sent s) :=
      (acts_sendObjs cl ub sent s : Acts lib Nothing _ s _).mails
    have result : handleLookup lib cl ub (ubusParseMsg lib data) cmd s =
        park cl ub cmd.isSome rest (sendObjs lib cl ub sent s) := by
      unfold handleLookup
      rw [named]
      exact loop
    rw [lookupStart_eq, shows.reg] at split'
    rw [result]
    cases rest with
    | nil =>
      rw [List.append_nil] at split'
      subst split'
      exact ⟨.finished .ok, _, _, rfl, .full named, shows', holds', mails⟩
    | cons node others =>
      exact ⟨.waits node.1, _, _, rfl, .parked named split', shows', holds', mails⟩
  · obtain ⟨t, result, shows', holds'⟩ := shows_find lib cl shows holds cmd named
    have mails := mails_find lib cl ub named cmd s
    rw [result] at mails
    exact ⟨.finished _, t, _, result, .path named, shows', holds', mails⟩

/-- **What becomes of a lookup**: it is finished, it waits before a path, or it does not start. Next to
the value that its handler returns is the place at which it waits. -/
inductive Bus.Goes (cl : Nat) (hdr : Msghdr) (data : Payload) (start : Option CString) (b : Bus) :
    Ret → Option (Option CString) → Bus → Prop where
  | finished {status : Status} {b' : Bus} (looks : b.Looks lib cl hdr data start (.finished status) b') :
      Bus.Goes cl hdr data start b (.done status) none (b'.status cl hdr status)
  | waits {key : CString} {b' : Bus} (looks : b.Looks lib cl hdr data start (.waits key) b') :
      Bus.Goes cl hdr data start b .queued (some (some key)) b'
  | busy : Bus.Goes cl hdr data start b .queued (some start) b

/-- The entry of a queue for a lookup that waits. -/
def waiting (ub : Nat) (place : Option (Option CString)) : List ClientCmd :=
  (place.map (ClientCmd.mk ub)).toList

theorem dispatch_lookup (typed : (s.buf ub).hdr.type = MsgType.lookup.code) :
    dispatch lib cl ub s = ubusdHandleLookup lib cl ub (ubusParseMsg lib (s.buf ub).data) s := by
  unfold dispatch
  rw [typed]
  rfl

/-- **A lookup is received.** -/
theorem goes_receiveLookup (shows : Shows s b) (ctx : Processing lib cl ub hdr data s)
    (lookup : hdr.type = MsgType.lookup.code) : ∃ place b',
      b.Goes lib cl hdr data none (dispatch lib cl ub (dropFd ub (setRetmsg cl ub s))).1 place b' ∧
      Shows (ubusdProtoReceiveMessage lib cl ub s) b' ∧
      ((ubusdProtoReceiveMessage lib cl ub s).net.sock cl).cmdQueue =
        (s.net.sock cl).cmdQueue ++ waiting ub place := by
  obtain ⟨retmsg, ctx1, -, -, -⟩ := ctx.setRetmsg
  obtain ⟨ctx2, -, -, -⟩ := dropFd_spec lib ctx1
  have shows2 := shows_prepare lib shows ctx
  have queue := (mails_prepare cl ub s).cmdQueue cl
  have unfolded : ubusdProtoReceiveMessage lib cl ub s = finish lib cl ub
      (dispatch lib cl ub (dropFd ub (setRetmsg cl ub s))).1
      (dispatch lib cl ub (dropFd ub (setRetmsg cl ub s))).2 := rfl
  have done : ∀ {ret t}, dispatch lib cl ub (dropFd ub (setRetmsg cl ub s)) = (ret, t) →
      ret ≠ .queued → ∀ {b'}, Shows t b' →
      Shows (ubusdProtoReceiveMessage lib cl ub s) (Bus.finish cl hdr (ret, b')) :=
    fun handled notQueued _ shows' => shows_finish lib ctx handled notQueued shows'
  generalize dropFd ub (setRetmsg cl ub s) = t at *
  have holds : Holds ub hdr data t := ⟨ctx2.handling.below, ctx2.hdr, ctx2.data⟩
  rw [dispatch_lookup lib (by rw [State.buf, ctx2.hdr, lookup])] at unfolded done ⊢
  rw [State.buf, ctx2.data, ubusdHandleLookup] at unfolded done ⊢
  by_cases idle : (t.tx cl).txQueue.isEmpty
  · rw [if_pos idle] at unfolded done ⊢
    obtain ⟨outcome, u, b', result, looks, shows', -, mails⟩ : ∃ outcome u b', handleLookup lib cl ub
        (ubusParseMsg lib data) none t = lookupEnd cl ub _ outcome u ∧ _ :=
      looks_handleLookup lib shows2 holds none
    rw [result] at unfolded done ⊢
    cases outcome with
    | finished status =>
      refine ⟨none, _, .finished looks, done rfl Ret.noConfusion shows', ?_⟩
      rw [unfolded]
      have freed := mails_free ub u
      have sent := mails_sendStatus lib cl (ubusMsgFree ub u) status
      rw [waiting, Option.map_none, Option.toList_none, List.append_nil]
      exact (((sent.cmdQueue cl).trans (freed.cmdQueue cl)).trans (mails.cmdQueue cl)).trans queue
    | waits key =>
      have final : ubusdProtoReceiveMessage lib cl ub s = (ubusClientCmdQueueAdd cl ub (some key) u).2 :=
        unfolded
      refine ⟨some (some key), b', .waits looks, ?_, ?_⟩
      · rw [final]
        exact ⟨shows'.bus, shows'.funded⟩
      · rw [final, ubusClientCmdQueueAdd, mapSock_self, mails.cmdQueue cl, queue]
        rfl
  · rw [if_neg idle] at unfolded ⊢
    have final : ubusdProtoReceiveMessage lib cl ub s = (ubusClientCmdQueueAdd cl ub none t).2 :=
      unfolded
    refine ⟨some none, b, .busy, ?_, ?_⟩
    · rw [final]
      exact ⟨shows2.bus, shows2.funded⟩
    · rw [final, ubusClientCmdQueueAdd, mapSock_self, queue]
      rfl

theorem inv_resumed {cmd : ClientCmd} {t : State} {status : Status} (inv : Inv lib [] s)
    (known : s.reg.HasClient cl) (first : (s.net.sock cl).cmdQueue.head? = some cmd)
    (result : handleLookup lib cl cmd.msg (ubusParseMsg lib (s.net.buf cmd.msg).data) (some cmd)
      (resuming cl cmd s) = (.done status, t)) : Inv lib [] t := by
  have inv0 : Inv lib [] (resuming cl cmd s) := inv.congr rfl rfl rfl rfl
  have plain := inv.posts.plain cl ((inv.clients cl).mp known) _ (mem_mail_of_head first)
  obtain ⟨_, sends, ⟨_, same⟩ | ⟨_, same⟩⟩ := handleLookup_cases lib
    (resuming_handling inv known first) plain (ubusParseMsg lib (s.net.buf cmd.msg).data) (some cmd)
  · rw [result] at same
    cases same
    have frame : Frame (Emits lib (resuming cl cmd s).cause) s.net.Kept s.net.Kept (resuming cl cmd s)
        t := by
      refine sends.frame.mono (fun _ => id) ?_ ?_ <;>
      · intro other kept
        by_cases same : other = cmd.msg
        · exact Or.inr same
        · exact Or.inl ⟨kept, same⟩
    exact inv0.of_sends frame (sends.custody inv0.custody) (by simp)
  · rw [result] at same
    cases same

/-- **A lookup is resumed.** -/
theorem goes_resumeCmd {cmd : ClientCmd} (funded : Funded s) (inv : Inv lib [] s)
    (known : s.reg.HasClient cl) (first : (s.net.sock cl).cmdQueue.head? = some cmd) :
    let hdr := (s.net.buf cmd.msg).hdr
    let data := (s.net.buf cmd.msg).data
    ∃ place b',
      { s.bus with cause := .resume cl cmd.msg hdr data }.Goes lib cl hdr data cmd.lookupPath
        (ubusdCmdLookup lib cl cmd (resuming cl cmd s)).1 place b' ∧
      Shows (resumeCmd lib cl cmd s).1 b' ∧ ((resumeCmd lib cl cmd s).1.net.sock cl).cmdQueue =
        waiting cmd.msg place ++ (s.net.sock cl).cmdQueue.tail := by
  intro hdr data
  have socket := (inv.clients cl).mp known
  have inv0 : Inv lib [] (resuming cl cmd s) := inv.congr rfl rfl rfl rfl
  have ctx := resuming_handling inv known first
  have kept := kept_of_mail socket (mem_mail_of_head first)
  have shows : Shows (resuming cl cmd s) { s.bus with cause := .resume cl cmd.msg hdr data } :=
    ⟨rfl, funded⟩
  obtain ⟨outcome, t, b', result, looks, shows', holds, mails⟩ : ∃ outcome t b', handleLookup lib cl
      cmd.msg (ubusParseMsg lib data) (some cmd) (resuming cl cmd s) = lookupEnd cl cmd.msg _ outcome t ∧
      _ := looks_handleLookup lib shows ⟨ctx.below, ctx.hdr, ctx.data⟩ (some cmd)
  have queue : (t.net.sock cl).cmdQueue = (s.net.sock cl).cmdQueue := mails.cmdQueue cl
  have tail : (s.net.sock cl).cmdQueue = cmd :: (s.net.sock cl).cmdQueue.tail :=
    List.eq_cons_of_mem_head? first
  cases outcome with
  | finished status =>
    have invT : Inv lib [] t := inv_resumed lib inv known first result
    have socketT : cl ∈ t.net.socks := (invT.clients cl).mp (by
      rw [Registry.HasClient, mails.reg]
      exact known)
    have notStatus := (invT.posts.keptBut socketT socketT
      (mem_mail_of_head (by rw [queue, first]))).2
    obtain ⟨retmsg, inv1, moved, prepared, -⟩ := setRetmsg_spec invT socketT notStatus
    rw [holds.hdr] at prepared
    have below := inv1.kept_below _ (kept_of_retmsg (moved.mem_socks socketT) prepared.here)
    obtain ⟨retmsg', here, -⟩ := invT.retmsg socketT
    have shows1 : Shows (setRetmsg cl cmd.msg t) b' := shows_setRetmsg shows' here
    have shows2 := shows_sendStatus lib shows1 prepared below status
    have mails2 := (mails_setRetmsg cl cmd.msg t).andThen (mails_sendStatus lib cl _ status)
    have ret : ubusdCmdLookup lib cl cmd (resuming cl cmd s) =
        (.done status, sendStatus lib cl status (setRetmsg cl cmd.msg t)) := by
      unfold ubusdCmdLookup
      simp only [State.buf] at result ⊢
      rw [result]
      rfl
    have final : (resumeCmd lib cl cmd s).1 =
        ubusClientCmdFree cl (sendStatus lib cl status (setRetmsg cl cmd.msg t)) cmd := by
      unfold resumeCmd
      simp only [ret]
    rw [ret]
    generalize sendStatus lib cl status (setRetmsg cl cmd.msg t) = u at shows2 mails2 final
    refine ⟨none, _, .finished looks, ?_, ?_⟩
    · rw [final]
      have emptied : Shows (u.mapSock cl fun sock => { sock with cmdQueue := sock.cmdQueue.tail }) _ :=
        ⟨shows2.bus, shows2.funded⟩
      exact (quiet_free cmd.msg _).shows emptied
    · rw [final, ubusClientCmdFree, (mails_free _ _).cmdQueue, mapSock_self]
      simp only
      rw [mails2.cmdQueue cl, queue]
      rfl
  | waits key =>
    have ret : ubusdCmdLookup lib cl cmd (resuming cl cmd s) = (.queued, setLookupPath cl key t) := by
      unfold ubusdCmdLookup
      simp only [State.buf] at result ⊢
      rw [result]
      rfl
    have final : (resumeCmd lib cl cmd s).1 = setLookupPath cl key t := by
      unfold resumeCmd
      simp only [ret]
    rw [ret]
    refine ⟨some (some key), b', .waits looks, ?_, ?_⟩
    · rw [final]
      exact ⟨shows'.bus, shows'.funded⟩
    rw [final, setLookupPath, mapSock_self]
    simp only
    rw [queue, tail]
    rfl

end Lookups

end Ubus
