/-
**The world: the bus, the lookups that wait and the messages received.**

* `Move.world`: a move of the daemon is a step of the world, as long as memory lasts.
* `Sound lib s` — the states that the daemon goes through while memory lasts.
-/

import Ubus.Ledger
import Ubus.Lookup
import Ubus.Safety

namespace Ubus

open Lib Relation

/-- A message of a client that was accepted, with the address of its buffer. -/
structure Mail where
  cl : Nat
  ub : Nat
  hdr : Msghdr
  data : Payload

/-- A lookup that waits: its message, and the path before which it stopped. -/
structure Waiting where
  ub : Nat
  hdr : Msghdr
  data : Payload
  place : Option CString

/-- **The world.** -/
structure World where
  bus : Bus
  waiting : Nat → List Waiting
  mails : List Mail
  good : bus.reg.Ok

namespace World

/-- The bus works on a message of a client. -/
abbrev on (w : World) (cl ub : Nat) (hdr : Msghdr) (data : Payload) : Bus :=
  { w.bus with cause := .message cl ub hdr data }

/-- The bus works on a lookup that waited. -/
abbrev resumes (w : World) (cl : Nat) (item : Waiting) : Bus :=
  { w.bus with cause := .resume cl item.ub item.hdr item.data }

/-- The entry of a queue for a lookup that waits. -/
def entry (ub : Nat) (hdr : Msghdr) (data : Payload) (place : Option (Option CString)) :
    List Waiting :=
  (place.map (Waiting.mk ub hdr data)).toList

/-- **The steps of the world.** -/
inductive Step (lib : Libubox) (w w' : World) : Prop where
  /-- Nothing happens for a client. -/
  | rest (cause : Cause) (rnd : List UInt32) (bus : w'.bus = { w.bus with cause, rnd })
      (waiting : w'.waiting = w.waiting) (mails : w'.mails = w.mails)
  | connect (cred : Option Cred) (bus : w'.bus = w.bus.connect cred)
      (waiting : w'.waiting = w.waiting) (mails : w'.mails = w.mails)
  /-- A message other than a lookup is received. -/
  | answer (cl ub : Nat) (hdr : Msghdr) (data : Payload) (known : w.bus.reg.HasClient cl)
      (fresh : ∀ mail ∈ w.mails, mail.ub ≠ ub) (other : hdr.type ≠ MsgType.lookup.code)
      (bus : w'.bus = (w.on cl ub hdr data).answer lib cl hdr data)
      (waiting : w'.waiting = w.waiting) (mails : w'.mails = w.mails ++ [⟨cl, ub, hdr, data⟩])
  /-- A lookup is received. -/
  | lookup (cl ub : Nat) (hdr : Msghdr) (data : Payload) (known : w.bus.reg.HasClient cl)
      (fresh : ∀ mail ∈ w.mails, mail.ub ≠ ub) (typed : hdr.type = MsgType.lookup.code)
      (ret : Ret) (place : Option (Option CString))
      (goes : (w.on cl ub hdr data).Goes lib cl hdr data none ret place w'.bus)
      (waiting : w'.waiting = Function.update w.waiting cl
        (w.waiting cl ++ entry ub hdr data place))
      (mails : w'.mails = w.mails ++ [⟨cl, ub, hdr, data⟩])
  /-- A lookup is resumed. -/
  | resume (cl : Nat) (item : Waiting) (rest : List Waiting) (known : w.bus.reg.HasClient cl)
      (first : w.waiting cl = item :: rest) (ret : Ret) (place : Option (Option CString))
      (goes : (w.resumes cl item).Goes lib cl item.hdr item.data item.place ret place w'.bus)
      (waiting : w'.waiting = Function.update w.waiting cl
        (entry item.ub item.hdr item.data place ++ rest))
      (mails : w'.mails = w.mails)
  | disconnect (cl : Nat) (known : w.bus.reg.HasClient cl) (bus : w'.bus = w.bus.disconnect lib cl)
      (waiting : w'.waiting = Function.update w.waiting cl []) (mails : w'.mails = w.mails)
  | aclLoad (host : Host) (dir : Directory) (fault : Bool)
      (bus : w'.bus = w.bus.aclLoad lib host dir fault)
      (waiting : w'.waiting = w.waiting) (mails : w'.mails = w.mails)

end World

/-! ### What a state shows of the world -/

/-- The message of an entry. -/
def Event.mail : Event → Option Mail
  | .accept _ cl ub hdr data _ => some ⟨cl, ub, hdr, data⟩
  | _ => none

/-- The accepted messages of a trace, oldest first. -/
def acceptedMails (trace : List Event) : List Mail := (trace.filterMap Event.mail).reverse

/-- The lookups in the command queue of a client. -/
def State.waiting (s : State) (cl : Nat) : List Waiting :=
  if s.reg.HasClient cl then (s.sock cl).cmdQueue.map fun cmd =>
    ⟨cmd.msg, (s.buf cmd.msg).hdr, (s.buf cmd.msg).data, cmd.lookupPath⟩
  else []

/-- **What a state shows of the world.** -/
def State.world (s : State) (good : s.reg.Ok) : World :=
  { bus := s.bus, waiting := s.waiting, mails := acceptedMails s.trace, good }

/-! ### Moves that the bus does not notice -/

section Quiet

variable {lib : Libubox} {cl ub : Nat} {s : State}

theorem quiet_txWrite (out : WriteOutcome) (s : State) : Quiet s (txWrite lib cl ub out s) := by
  have written : Quiet s (ubusMsgWritev lib cl ub (s.tx cl).txqOfs out s).2 :=
    Wire.quiet (wire_writev lib cl ub _ out s : Wire _ (fun _ => False) (fun _ => False) s _)
  unfold txWrite
  rcases result : ubusMsgWritev lib cl ub (s.tx cl).txqOfs out s with ⟨_ | count, t⟩
  · rw [result] at written
    exact written
  rw [result] at written
  simp only [txAdvance, ubusMsgListFree]
  split
  · exact written.trans ⟨rfl, List.suffix_rfl⟩
  · refine Quiet.trans ?_ (quiet_free ub _)
    exact written.trans ⟨rfl, List.suffix_rfl⟩

theorem quiet_headerDone (cl : Nat) (s : State) : Quiet s (headerDone cl s).2 := by
  unfold headerDone
  simp only
  split
  · exact .refl s
  split
  · exact .refl s
  have made := quiet_new (.received ((s.rx cl).hdrbuf.drop 8)) false s
  rcases result : ubusMsgNew (.received ((s.rx cl).hdrbuf.drop 8)) false s with ⟨_ | new, t⟩
  · rw [result] at made
    exact made
  · rw [result] at made
    exact made.trans ⟨rfl, List.suffix_rfl⟩

theorem quiet_takeBytes (cl count : Nat) (s : State) : Quiet s (takeBytes cl count s).2 :=
  ⟨rfl, List.suffix_rfl⟩

theorem quiet_recvHeader (cl : Nat) (out : ReadOutcome) (s : State) :
    Quiet s (recvHeader cl out s).2 := by
  unfold recvHeader
  cases out with
  | again => exact .refl s
  | got extra fd =>
    simp only
    generalize min (extra + 1) (12 - (s.rx cl).pendingMsgOffset) = count
    have taken := quiet_takeBytes cl count s
    have both : Quiet s (recvFd cl fd (takeBytes cl count s).2) := by
      unfold recvFd
      split
      · exact taken.trans ⟨rfl, List.suffix_rfl⟩
      · exact taken
    generalize recvFd cl fd (takeBytes cl count s).2 = t at both ⊢
    split
    · exact both.trans ⟨rfl, List.suffix_rfl⟩
    · refine Quiet.trans ?_ (quiet_headerDone cl _)
      exact both.trans ⟨rfl, List.suffix_rfl⟩

theorem quiet_gotBody (count : Nat) (s : State) : Quiet s (gotBody lib cl ub count s) :=
  ⟨rfl, List.suffix_rfl⟩

end Quiet

/-! ### Clients come and go -/

section Clients

variable (lib : Libubox) {cl : Nat} {s : State} {b : Bus}

theorem Shows.mapSock (shows : Shows s b) (cl : Nat) (f : Sock → Sock) : Shows (s.mapSock cl f) b :=
  ⟨shows.bus, shows.funded⟩

theorem shows_greetClient (shows : Shows s b) (cl : Nat) : Shows (greetClient lib cl s)
    (b.submit cl { type := MsgType.hello.code, peer := (b.reg.client cl).id } (.built [])) := by
  obtain ⟨retmsg, t, made, shows1, -, -, -⟩ := shows.new (.built [.int32 .status 0]) true
  unfold greetClient ubusdProtoInitRetmsg
  simp only [made]
  generalize filled : State.mapSock cl _ (t.mapHdr retmsg _) = u
  have shows2 : Shows u b := filled ▸ (shows1.mapBuf retmsg _).mapSock cl _
  obtain ⟨ub, v, made', shows3, -, below, buf⟩ := shows2.new (.built []) true
  unfold ubusdSendHello
  simp only [made']
  generalize ready : v.mapHdr ub _ = w
  have shows4 : Shows w b := ready ▸ shows3.mapBuf ub _
  have here : (w.buf ub).hdr = { type := MsgType.hello.code, peer := (b.reg.client cl).id } ∧
      (w.buf ub).data = .built [] := by
    rw [← ready]
    simp [State.mapHdr, State.mapBuf, shows3.reg, show v.net.buf ub = _ from buf]
  have sent : Shows (ubusMsgSend lib cl ub w) _ :=
    shows_send lib shows4 (by rw [← ready]; exact below) (by
      rw [here.1]
      exact (by decide : MsgType.hello.code ≠ MsgType.monitor.code))
  rw [here.1, here.2] at sent
  exact ((quiet_free ub _).shows sent).mapSock cl _

theorem shows_newClient (shows : Shows s b) (cred : Option Cred) :
    Shows (ubusdProtoNewClient lib cred { s with cause := .connect s.reg.brk }) (b.connect cred) := by
  obtain ⟨rfl, funded⟩ := shows
  unfold ubusdProtoNewClient Bus.connect
  cases cred with
  | none => exact ⟨rfl, funded⟩
  | some cred =>
    simp only [State.bus]
    rcases ubusAllocId s.reg.clients s.reg.brk s.rnd with ⟨_ | ⟨id, clients⟩, rnd⟩
    · exact ⟨rfl, funded⟩
    · simp only
      refine shows_greetClient lib ?_ s.reg.brk
      exact ⟨rfl, funded⟩

theorem Bus.unsubscribes_reg (subs : List Nat) (b : Bus) :
    (subs.foldl Bus.unsubscribe b).reg = b.reg.unlinkAll subs := by
  induction subs generalizing b with
  | nil => rfl
  | cons sub rest ih => rw [List.foldl_cons, ih, Bus.unsubscribe_reg, Registry.unlinkAll,
      Registry.unlinkAll, List.foldl_cons]

theorem Bus.notifyUnsubscribes_reg (subs : List Nat) (b : Bus) :
    (subs.foldl Bus.notifyUnsubscribe b).reg = b.reg.unlinkAll subs := by
  induction subs generalizing b with
  | nil => rfl
  | cons sub rest ih => rw [List.foldl_cons, ih, Bus.notifyUnsubscribe_reg, Registry.unlinkAll,
      Registry.unlinkAll, List.foldl_cons]

theorem Bus.announceRemoval_reg (obj : Nat) (b : Bus) : (b.announceRemoval lib obj).reg = b.reg := by
  unfold Bus.announceRemoval
  split
  · rfl
  · exact Bus.sendObjEvent_reg ..

theorem Bus.freeObject_reg (b : Bus) (obj : Nat) :
    (b.freeObject lib obj).reg = b.reg.freeObject obj := by
  unfold Bus.freeObject Registry.freeObject
  simp only [Bus.mapReg, Bus.announceRemoval_reg, Bus.notifyUnsubscribes_reg, Bus.unsubscribes_reg]

theorem unlinkAll_patterns (subs : List Nat) (reg : Registry) :
    (reg.unlinkAll subs).patterns = reg.patterns := by
  induction subs generalizing reg with
  | nil => rfl
  | cons sub rest ih => rw [Registry.unlinkAll, List.foldl_cons, ← Registry.unlinkAll, ih,
      unlinkSubscription_patterns]

theorem dropObject_patterns (obj : Nat) (reg : Registry) :
    (dropObject obj reg).patterns = reg.patterns := by
  unfold dropObject unlinkObject removePath
  simp only [unref_patterns]
  split <;> split <;> rfl

theorem sorted_freeObject {reg : Registry} (sorted : reg.patterns.Sorted) (obj : Nat) :
    (reg.freeObject obj).patterns.Sorted := by
  unfold Registry.freeObject
  simp only [dropObject_patterns]
  refine sorted_eventCleanup ?_ obj
  rw [unlinkAll_patterns, unlinkAll_patterns]
  exact sorted

theorem shows_freeObjects (objs : List Nat) (shows : Shows s b) (sorted : b.reg.patterns.Sorted) :
    Shows (objs.foldl (ubusdFreeObject lib) s) (objs.foldl (Bus.freeObject lib) b) := by
  induction objs generalizing s b with
  | nil => exact shows
  | cons obj rest ih =>
    refine ih (shows_freeObject lib shows sorted obj) ?_
    rw [Bus.freeObject_reg]
    exact sorted_freeObject sorted obj

theorem Quiet.foldl {ι : Type} {body : State → ι → State} (round : ∀ s item, Quiet s (body s item))
    (items : List ι) (s : State) : Quiet s (items.foldl body s) := by
  induction items generalizing s with
  | nil => exact .refl s
  | cons item rest ih => exact (round s item).trans (ih (body s item))

theorem quiet_clientCmdFree (cl : Nat) (s : State) (cmd : ClientCmd) :
    Quiet s (ubusClientCmdFree cl s cmd) := by
  refine Quiet.trans ?_ (quiet_free cmd.msg _)
  exact ⟨rfl, List.suffix_rfl⟩

theorem quiet_msgListFree (cl : Nat) (s : State) (ub : Nat) : Quiet s (ubusMsgListFree cl s ub) := by
  refine Quiet.trans ?_ (quiet_free ub _)
  exact ⟨rfl, List.suffix_rfl⟩

theorem quiet_freeRetmsg (cl : Nat) (s : State) : Quiet s (freeRetmsg cl s) := by
  unfold freeRetmsg
  split
  · exact .refl s
  · refine Quiet.trans ?_ (quiet_free _ _)
    exact ⟨rfl, List.suffix_rfl⟩

theorem quiet_dropPending (cl : Nat) (s : State) : Quiet s (dropPending cl s) := by
  unfold dropPending
  simp only
  generalize cleared : s.mapRx cl _ = t
  have first : Quiet s t := cleared ▸ ⟨rfl, List.suffix_rfl⟩
  have closed := first.trans (quiet_closeFd (s.rx cl).pendingMsgFd t)
  split
  · exact closed
  · exact closed.trans (quiet_free _ _)

/-- **A client goes.** -/
theorem shows_disconnect (shows : Shows s b) (sorted : b.reg.patterns.Sorted) (cl : Nat) :
    Shows (handleClientDisconnect lib cl s) (b.disconnect lib cl) := by
  have begun : Shows { s with cause := .disconnect cl } { b with cause := .disconnect cl } := by
    obtain ⟨rfl, funded⟩ := shows
    exact ⟨rfl, funded⟩
  have cmds := (Quiet.foldl (quiet_clientCmdFree cl) (s.sock cl).cmdQueue _).shows begun
  unfold handleClientDisconnect ubusdProtoFreeClient Bus.disconnect
  simp only
  generalize List.foldl (ubusClientCmdFree cl) _ _ = t at cmds ⊢
  have quit : Shows (ubusdMonitorDisconnect cl t)
      { b with cause := .disconnect cl, monitors := b.monitors.erase cl } := by
    have monitors : t.net.monitors.map Monitor.cl = b.monitors := congrArg Bus.monitors cmds.bus
    have removed := cmds.withMonitors (t.net.monitors.eraseP fun m => m.cl = cl)
    rwa [monitors_eraseP, monitors] at removed
  generalize ubusdMonitorDisconnect cl t = u at quit ⊢
  rw [quit.reg]
  have freed := shows_freeObjects lib (b.reg.client cl).objects quit sorted
  generalize List.foldl (ubusdFreeObject lib) u _ = v at freed ⊢
  have unnamed : Shows (freeClientId cl (freeRetmsg cl v)) _ :=
    ((quiet_freeRetmsg cl v).shows freed).mapReg fun reg => { reg with
      clients := reg.clients.delete cl }
  generalize freeClientId cl (freeRetmsg cl v) = x at unnamed ⊢
  have drained := (Quiet.foldl (quiet_msgListFree cl) (x.tx cl).txQueue x).shows unnamed
  have dropped := (quiet_dropPending cl _).shows drained
  exact ⟨dropped.bus, dropped.funded⟩

/-- **The access lists are loaded.** -/
theorem shows_aclLoad (shows : Shows s b) (sorted : b.reg.patterns.Sorted) (host : Host)
    (dir : Directory) (fault : Bool) :
    Shows (aclLoadAndAnnounce lib host dir fault s) (b.aclLoad lib host dir fault) := by
  obtain ⟨rfl, funded⟩ := shows
  unfold aclLoadAndAnnounce Bus.aclLoad
  simp only
  cases glob dir fault with
  | none => exact ⟨rfl, funded⟩
  | some files =>
    have loaded : Shows (State.mapReg (fun reg => { reg with
        acl := ubusdAclLoad lib host dir fault reg.acl }) { s with cause := .aclLoad }) _ :=
      ⟨rfl, funded⟩
    exact (shows_event lib none _ _ loaded sorted).shows

end Clients

/-! ### A move is a step -/

section Moves

variable {lib : Libubox} {cl ub : Nat} {s s' t : State}

theorem World.Step.refl (w : World) : World.Step lib w w := .rest w.bus.cause w.bus.rnd rfl rfl rfl

theorem acceptedMails_append (new trace : List Event) :
    acceptedMails (new ++ trace) = acceptedMails trace ++ acceptedMails new := by
  rw [acceptedMails, List.filterMap_append, List.reverse_append]
  rfl

theorem acceptedMails_of_emits {cause : Cause} {new : List Event}
    (emits : ∀ event ∈ new, Emits lib cause event) : acceptedMails new = [] := by
  refine List.reverse_eq_nil_iff.mpr (List.filterMap_eq_nil_iff.mpr fun event member => ?_)
  cases event with
  | accept => exact (emits _ member).elim
  | submit => rfl
  | sendObj => rfl

theorem mem_acceptedBufs_of_mail {trace : List Event} {mail : Mail}
    (member : mail ∈ acceptedMails trace) : mail.ub ∈ acceptedBufs trace := by
  obtain ⟨event, member, here⟩ := List.mem_filterMap.mp (List.mem_reverse.mp member)
  refine List.mem_filterMap.mpr ⟨event, member, ?_⟩
  cases event with
  | accept =>
    cases here
    rfl
  | submit => cases here
  | sendObj => cases here

theorem waiting_of_rests (inv : Inv lib [] s) (inv' : Inv lib [] s') (rests : Rests cl s s') :
    s'.waiting cl = s.waiting cl := by
  have client : s'.reg.HasClient cl ↔ s.reg.HasClient cl := by
    rw [inv'.clients, inv.clients, rests.known]
  unfold State.waiting
  by_cases has : s.reg.HasClient cl
  · rw [if_pos has, if_pos (client.mpr has), State.sock, rests.cmdQueue]
    refine List.map_congr_left fun cmd member => ?_
    obtain ⟨hdr, data⟩ := rests.mail ((inv.clients cl).mp has) cmd.msg
      (List.mem_append_left _ (List.mem_map_of_mem member))
    rw [State.buf, hdr, data]
  · rw [if_neg has, if_neg fun has' => has (client.mp has')]

theorem waiting_of_reads (inv : Inv lib [] s) (inv' : Inv lib [] s') (reads : Reads cl s s') :
    s'.waiting = s.waiting := by
  funext other
  by_cases same : other = cl
  · subst same
    unfold State.waiting
    rw [reads.reg, State.sock, reads.cmdQueue]
    split
    · rename_i has
      refine List.map_congr_left fun cmd member => ?_
      obtain ⟨hdr, data⟩ := reads.queued ((inv.clients other).mp has) cmd member
      rw [State.buf, hdr, data]
    · rfl
  · exact waiting_of_rests inv inv' (reads.rests other same)

theorem world_of_reads (inv : Inv lib [] s) (inv' : Inv lib [] s') (reads : Reads cl s s')
    (quiet : Quiet s s') : s'.world inv'.good = s.world inv.good := by
  simp only [State.world, quiet.bus, waiting_of_reads inv inv' reads, reads.trace]

theorem step_of_rests (inv : Inv lib [] s) (inv' : Inv lib [] s') (rests : ∀ cl, Rests cl s s')
    {cause : Cause} {rnd : List UInt32} (bus : s'.bus = { s.bus with cause, rnd })
    (trace : s'.trace = s.trace) : World.Step lib (s.world inv.good) (s'.world inv'.good) := by
  refine .rest cause rnd bus ?_ (congrArg acceptedMails trace)
  simp only [State.world, funext fun cl => waiting_of_rests inv inv' (rests cl)]

theorem shows_takeMessage (funded : Funded t) : Shows (takeMessage cl ub t)
    { t.bus with cause := .message cl ub (t.net.buf ub).hdr (t.net.buf ub).data } := by
  refine ⟨?_, funded⟩
  have cause : (takeMessage cl ub t).cause =
      .message cl ub (t.net.buf ub).hdr (t.net.buf ub).data := by
    simp [takeMessage, State.log, State.mapRx, State.mapSock, State.mapBuf]
  have out : letters (takeMessage cl ub t).trace = letters t.trace := by
    obtain ⟨⟨moment, fd, trace⟩, -⟩ := takeMessage_facts cl ub t
    rw [trace, letters_log]
    exact List.append_nil _
  rw [State.bus, cause, out]
  rfl

theorem waiting_of_same (known : s.reg.HasClient cl) (known' : s'.reg.HasClient cl)
    {added : List ClientCmd}
    (queue : (s'.net.sock cl).cmdQueue = (s.net.sock cl).cmdQueue ++ added)
    (queued : ∀ cmd ∈ (s.net.sock cl).cmdQueue, (s'.net.buf cmd.msg).hdr = (s.net.buf cmd.msg).hdr ∧
      (s'.net.buf cmd.msg).data = (s.net.buf cmd.msg).data) :
    s'.waiting cl = s.waiting cl ++ added.map fun cmd =>
      ⟨cmd.msg, (s'.buf cmd.msg).hdr, (s'.buf cmd.msg).data, cmd.lookupPath⟩ := by
  unfold State.waiting
  rw [if_pos known, if_pos known', State.sock, queue, List.map_append]
  congr 1
  refine List.map_congr_left fun cmd member => ?_
  rw [State.buf, (queued cmd member).1, (queued cmd member).2]

theorem Accepts.mails {hdr : Msghdr} {data : Payload} (accepts : Accepts lib cl ub hdr data s s') :
    acceptedMails s'.trace = acceptedMails s.trace ++ [⟨cl, ub, hdr, data⟩] := by
  obtain ⟨new, moment, fd, trace, emits⟩ := accepts.trace
  rw [trace, acceptedMails_append, acceptedMails_of_emits emits, List.append_nil]
  exact acceptedMails_append [_] s.trace

/-- **A message is accepted.** -/
theorem step_accept (inv : Inv lib [] s) (ledger : Ledger s) (funded : Funded s)
    (known : s.reg.HasClient cl) (pending : (s.net.sock cl).rx.pendingMsg = some ub)
    (inv' : Inv lib [] (acceptMessage lib cl ub s)) :
    World.Step lib (s.world inv.good) ((acceptMessage lib cl ub s).world inv'.good) := by
  have socket := (inv.clients cl).mp known
  have accepts := accepts_acceptMessage inv known pending
  obtain ⟨ctx, -⟩ := acceptMessage_processing inv known pending
  have shows := (quiet_monitorMessage lib cl ub false (takeMessage cl ub s)).shows
    (shows_takeMessage funded)
  have fresh : ∀ mail ∈ acceptedMails s.trace, mail.ub ≠ ub := by
    rintro mail member rfl
    exact (ledger.filed cl socket).pending _ pending (mem_acceptedBufs_of_mail member)
  have mails := accepts.mails
  have known' : (acceptMessage lib cl ub s).reg.HasClient cl :=
    (inv'.clients cl).mpr (accepts.socks ▸ socket)
  have others : ∀ other, other ≠ cl → (acceptMessage lib cl ub s).waiting other = s.waiting other :=
    fun other differs => waiting_of_rests inv inv' (accepts.rests other differs)
  by_cases lookup : (s.net.buf ub).hdr.type = MsgType.lookup.code
  · obtain ⟨place, b', goes, final, queue⟩ := goes_receiveLookup lib shows ctx lookup
    have told := (mails_monitorMessage lib cl ub false (takeMessage cl ub s)).cmdQueue cl
    obtain ⟨-, -, -, taken, -⟩ := takeMessage_facts cl ub s
    rw [told, taken] at queue
    have waits := waiting_of_same known known' queue accepts.queued
    have here : (waiting ub place).map (fun cmd => (⟨cmd.msg,
        ((acceptMessage lib cl ub s).buf cmd.msg).hdr, ((acceptMessage lib cl ub s).buf cmd.msg).data,
        cmd.lookupPath⟩ : Waiting)) = World.entry ub (s.net.buf ub).hdr (s.net.buf ub).data place := by
      cases place with
      | none => rfl
      | some place =>
        rcases accepts.queue with same | ⟨_, -, -, hdr, data⟩
        · have lengths := congrArg List.length (same.symm.trans queue)
          simp [waiting] at lengths
        · simp only [waiting, World.entry, Option.map_some, Option.toList_some, List.map_cons,
            List.map_nil, State.buf, hdr, data]
    rw [here] at waits
    have queues : (acceptMessage lib cl ub s).waiting = Function.update s.waiting cl (s.waiting cl ++
        World.entry ub (s.net.buf ub).hdr (s.net.buf ub).data place) := by
      funext other
      by_cases same : other = cl
      · subst same
        rw [Function.update_self]
        exact waits
      · rw [Function.update_of_ne same]
        exact others other same
    refine .lookup cl ub _ _ known fresh lookup _ place (final.bus ▸ goes) ?_ mails
    simp only [State.world, queues]
  · have final : Shows (acceptMessage lib cl ub s) _ := shows_receiveMessage lib shows ctx lookup
    have waits : (acceptMessage lib cl ub s).waiting = s.waiting := by
      funext other
      by_cases same : other = cl
      · subst same
        rcases accepts.queue with queue | ⟨_, -, typed, -⟩
        · exact (waiting_of_same known known' (queue.trans (List.append_nil _).symm)
            accepts.queued).trans (List.append_nil _)
        · exact absurd typed lookup
      · exact others other same
    refine .answer cl ub _ _ known fresh lookup final.bus ?_ mails
    simp only [State.world, waits]

/-- **A lookup is resumed.** -/
theorem step_resume {cmd : ClientCmd} (inv : Inv lib [] s) (funded : Funded s)
    (known : s.reg.HasClient cl) (first : (s.net.sock cl).cmdQueue.head? = some cmd)
    (inv' : Inv lib [] (resumeCmd lib cl cmd s).1) :
    World.Step lib (s.world inv.good) ((resumeCmd lib cl cmd s).1.world inv'.good) := by
  have socket := (inv.clients cl).mp known
  have resumes := resumes_resumeCmd inv known first
  obtain ⟨place, b', goes, final, queue⟩ := goes_resumeCmd lib funded inv known first
  have tail : (s.net.sock cl).cmdQueue = cmd :: (s.net.sock cl).cmdQueue.tail :=
    List.eq_cons_of_mem_head? first
  have known' : (resumeCmd lib cl cmd s).1.reg.HasClient cl :=
    (inv'.clients cl).mpr (resumes.socks ▸ socket)
  have mails : acceptedMails (resumeCmd lib cl cmd s).1.trace = acceptedMails s.trace := by
    obtain ⟨new, trace, emits⟩ := resumes.trace
    rw [trace, acceptedMails_append, acceptedMails_of_emits emits, List.append_nil]
  generalize (resumeCmd lib cl cmd s).1 = s' at *
  have kept : ∀ other ∈ (s.net.sock cl).cmdQueue, (s'.net.buf other.msg).hdr =
      (s.net.buf other.msg).hdr ∧ (s'.net.buf other.msg).data = (s.net.buf other.msg).data :=
    fun other member => resumes.mail _ (List.mem_append_left _ (List.mem_map_of_mem member))
  have here := kept cmd (by rw [tail]; exact List.mem_cons_self)
  have now : s.waiting cl = ⟨cmd.msg, (s.net.buf cmd.msg).hdr, (s.net.buf cmd.msg).data,
      cmd.lookupPath⟩ :: (s.net.sock cl).cmdQueue.tail.map fun other => ⟨other.msg,
        (s.buf other.msg).hdr, (s.buf other.msg).data, other.lookupPath⟩ := by
    unfold State.waiting
    rw [if_pos known, State.sock, tail]
    rfl
  have later : s'.waiting = Function.update s.waiting cl (World.entry cmd.msg
      (s.net.buf cmd.msg).hdr (s.net.buf cmd.msg).data place ++
      (s.net.sock cl).cmdQueue.tail.map fun other => ⟨other.msg, (s.buf other.msg).hdr,
        (s.buf other.msg).data, other.lookupPath⟩) := by
    funext other
    by_cases same : other = cl
    · subst same
      rw [Function.update_self, State.waiting, if_pos known', State.sock, queue, List.map_append]
      congr 1
      · cases place with
        | none => rfl
        | some place => simp [waiting, World.entry, here.1, here.2]
      · refine List.map_congr_left fun cmd' member => ?_
        obtain ⟨hdr, data⟩ := kept cmd' (List.mem_of_mem_tail member)
        rw [State.buf, hdr, data]
    · rw [Function.update_of_ne same]
      exact waiting_of_rests inv inv' (resumes.rests other same)
  refine .resume cl ⟨cmd.msg, (s.net.buf cmd.msg).hdr, (s.net.buf cmd.msg).data, cmd.lookupPath⟩
    ((s.net.sock cl).cmdQueue.tail.map fun other => ⟨other.msg, (s.buf other.msg).hdr,
      (s.buf other.msg).data, other.lookupPath⟩) known ?_ _ place (final.bus ▸ goes) ?_ mails
  · simp only [State.world, now]
  · simp only [State.world, later]

theorem step_recvBody (inv : Inv lib [] s) (ledger : Ledger s) (funded : Funded s)
    (known : s.reg.HasClient cl) (pending : (s.net.sock cl).rx.pendingMsg = some ub)
    (out : ReadOutcome) (inv' : Inv lib [] (recvBody lib cl ub out s).2) :
    World.Step lib (s.world inv.good) ((recvBody lib cl ub out s).2.world inv'.good) := by
  have socket := (inv.clients cl).mp known
  have result := recvBody_cases lib cl ub out s
  generalize (recvBody lib cl ub out s).2 = s' at *
  obtain same | ⟨count, result⟩ := result
  · subst same
    exact .refl _
  have got := reads_gotBody inv socket pending count
  have quiet : Quiet s (gotBody lib cl ub count s) := quiet_gotBody count s
  obtain ⟨-, same⟩ | ⟨-, same⟩ | ⟨-, same⟩ := result
  · subst same
    rw [world_of_reads inv inv' (reads_takeBytes count) (quiet_takeBytes cl count s)]
    exact .refl _
  · have reads : Reads cl s s' := same ▸ got.trans (Reads.mapRx _)
    rw [world_of_reads inv inv' reads (quiet.trans (same ▸ ⟨rfl, List.suffix_rfl⟩))]
    exact .refl _
  · subst same
    have filled : Inv lib [] (gotBody lib cl ub count s) := inv_gotBody inv known count
    have pending' : ((gotBody lib cl ub count s).net.sock cl).rx.pendingMsg = some ub :=
      pending_gotBody pending count
    have filed : Ledger (gotBody lib cl ub count s) := ledger.reads got fun _ other here => by
      rw [pending'] at here
      cases here
      exact (ledger.filed cl socket).pending ub pending
    rw [← world_of_reads inv filled got quiet]
    exact step_accept filled filed (quiet.funded funded) known pending' inv'

/-- **A move of the daemon is a step of the world**, as long as memory lasts. -/
theorem Move.world (move : Move lib s s') (inv : Inv lib [] s) (inv' : Inv lib [] s')
    (ledger : Ledger s) (funded : Funded s) :
    World.Step lib (s.world inv.good) (s'.world inv'.good) := by
  have sorted : s.bus.reg.patterns.Sorted := inv.good.patterns.sorted
  have shows : Shows s s.bus := ⟨rfl, funded⟩
  cases move with
  | begin writes allocs rnd =>
    exact step_of_rests inv inv' (fun cl => Rests.of_eq rfl rfl fun _ _ _ => ⟨rfl, rfl⟩) rfl rfl
  | connect cred =>
    obtain ⟨-, spares, fresh⟩ := newClient_spec inv cred
    refine .connect cred (shows_newClient lib shows cred).bus ?_ ?_
    · simp only [State.world]
      funext cl
      by_cases same : cl = s.reg.brk
      · subst same
        have absent : ¬ s.reg.HasClient s.reg.brk := fun has =>
          absurd (inv.good.clients.lt_of_has has) (lt_irrefl _)
        rw [State.waiting, State.waiting, if_neg absent]
        split
        · rename_i has
          rw [State.sock, (fresh ((inv'.clients _).mp has)).2]
          rfl
        · rfl
      · exact waiting_of_rests inv inv' (Rests.of_spares spares same)
    · obtain ⟨new, trace, emits⟩ := spares.trace
      simp only [State.world, trace, acceptedMails_append, acceptedMails_of_emits emits,
        List.append_nil]
  | @arrive cl known bytes hup =>
    exact step_of_rests inv inv' (fun other => rests_arrive cl other bytes hup s) rfl rfl
  | @write cl ub known first out =>
    obtain ⟨trace, rests⟩ := rests_txWrite lib cl ub out s
    exact step_of_rests inv inv' rests (quiet_txWrite out s).bus trace
  | resume known first => exact step_resume inv funded known first inv'
  | @quiet cl known => exact step_of_rests inv inv' (fun other => rests_mapTx cl other _ s) rfl rfl
  | header known empty opened room out =>
    rw [world_of_reads inv inv' (reads_recvHeader inv (inv.sockets _ known) out)
      (quiet_recvHeader _ out s)]
    exact .refl _
  | body known pending out => exact step_recvBody inv ledger funded known pending out inv'
  | accept known pending complete => exact step_accept inv ledger funded known pending inv'
  | @disconnect cl known =>
    obtain ⟨-, absent, spares, -⟩ := disconnect_spec inv known
    refine .disconnect cl known (shows_disconnect lib shows sorted cl).bus ?_ ?_
    · simp only [State.world]
      funext other
      by_cases same : other = cl
      · subst same
        rw [Function.update_self, State.waiting, if_neg fun has => absent ((inv'.clients _).mp has)]
      · rw [Function.update_of_ne same]
        exact waiting_of_rests inv inv' (Rests.of_spares spares same)
    · obtain ⟨new, trace, emits⟩ := spares.trace
      simp only [State.world, trace, acceptedMails_append, acceptedMails_of_emits emits,
        List.append_nil]
  | aclLoad host dir fault =>
    have frame := (aclLoad_moved inv host dir fault).work.sends.frame
    refine .aclLoad host dir fault (shows_aclLoad lib shows sorted host dir fault).bus ?_ ?_
    · simp only [State.world, funext fun other => waiting_of_rests inv inv'
        (rests_aclLoad inv host dir fault other)]
    · obtain ⟨new, trace, emits⟩ := frame.trace
      simp only [State.world, trace, acceptedMails_append, acceptedMails_of_emits emits,
        List.append_nil]

end Moves

/-! ### Runs in which memory lasts -/

section Sound

variable {lib : Libubox} {s s' : State}

/-- A move while memory lasts. -/
abbrev SoundMove (lib : Libubox) : State → State → Prop := MoveIn lib Funded

/-- **The states that the daemon goes through while memory lasts.** -/
def Sound (lib : Libubox) (s : State) : Prop := ReflTransGen (SoundMove lib) State.init s

theorem Sound.reachable (sound : Sound lib s) : Reachable lib s :=
  MoveIn.moves sound

theorem Sound.inv (sound : Sound lib s) : Inv lib [] s := sound.reachable.inv

/-- The world that a state shows. -/
def Sound.world (sound : Sound lib s) : World := s.world sound.inv.good

theorem Sound.tail (sound : Sound lib s) (move : SoundMove lib s s') : Sound lib s' :=
  ReflTransGen.tail sound move

theorem Sound.step (sound : Sound lib s) (move : SoundMove lib s s') :
    World.Step lib sound.world (sound.tail move).world :=
  move.1.world sound.inv (sound.tail move).inv sound.reachable.ledger move.2

/-- **An invariant of the world** holds in every state. -/
theorem Sound.induction {P : World → Prop} (init : P (State.init.world good_init))
    (step : ∀ w w', World.Step lib w w' → P w → P w') (sound : Sound lib s) : P sound.world := by
  induction sound with
  | refl => exact init
  | @tail t u before move ih => exact step _ _ (Sound.step before move) ih

theorem funded_accept {cl ub : Nat} (inv : Inv lib [] s) (funded : Funded s)
    (known : s.reg.HasClient cl) (pending : (s.net.sock cl).rx.pendingMsg = some ub) :
    Funded (acceptMessage lib cl ub s) := by
  obtain ⟨ctx, -⟩ := acceptMessage_processing inv known pending
  have shows := (quiet_monitorMessage lib cl ub false (takeMessage cl ub s)).shows
    (shows_takeMessage funded)
  by_cases lookup : (s.net.buf ub).hdr.type = MsgType.lookup.code
  · obtain ⟨_, _, -, final, -⟩ := goes_receiveLookup lib shows ctx lookup
    exact final.funded
  · exact (shows_receiveMessage lib shows ctx lookup).funded

theorem lasting_funded (lib : Libubox) : Lasting lib Funded where
  arrive := fun _ _ _ funded => funded
  write := fun _ _ out funded => (quiet_txWrite out _).funded funded
  resume := fun inv known first funded => by
    obtain ⟨_, _, -, final, -⟩ := goes_resumeCmd lib funded inv known first
    exact final.funded
  quiet := fun _ funded => funded
  header := fun cl out funded => (quiet_recvHeader cl out _).funded funded
  body := fun {s cl ub} out inv known pending funded => by
    obtain same | ⟨count, ⟨-, same⟩ | ⟨-, same⟩ | ⟨-, same⟩⟩ := recvBody_cases lib cl ub out s <;>
      rw [same]
    · exact funded
    · exact funded
    · exact funded
    · exact funded_accept (inv_gotBody inv known count) funded known (pending_gotBody pending count)
  accept := fun inv known pending funded => funded_accept inv funded known pending
  connect := fun cred funded => (shows_newClient lib ⟨rfl, funded⟩ cred).funded
  disconnect := fun cl inv funded =>
    (shows_disconnect lib ⟨rfl, funded⟩ inv.good.patterns.sorted cl).funded
  aclLoad := fun host dir fault inv funded =>
    (shows_aclLoad lib ⟨rfl, funded⟩ inv.good.patterns.sorted host dir fault).funded

/-- **A run in which no `calloc` fails** leads through such states. -/
theorem sound_run (lib : Libubox) (inputs : List Input)
    (funded : ∀ input ∈ inputs, ∀ ok ∈ input.allocs, ok = true) :
    Sound lib (run lib inputs State.init) := by
  have from_sound : ∀ s, Sound lib s → Funded s → Sound lib (run lib inputs s) := by
    induction inputs with
    | nil => exact fun s sound _ => sound
    | cons input rest ih =>
      intro s sound here
      obtain ⟨path, holds⟩ := step_movesIn (lasting_funded lib) sound.inv here input
        (funded input List.mem_cons_self)
      exact ih (fun input member => funded input (List.mem_cons_of_mem _ member)) _
        (ReflTransGen.trans sound path) holds
  exact from_sound _ .refl (nomatch ·, ·)

/-- **The daemon refines the bus.** However the daemon moves while memory lasts, what its states show
(the registry, the letters that were sent, the messages that were accepted and the lookups that wait)
goes through steps of the abstract bus. -/
theorem daemon_refines_bus (sound : Sound lib s) (moves : ReflTransGen (SoundMove lib) s s') :
    ∃ sound' : Sound lib s', ReflTransGen (World.Step lib) sound.world sound'.world := by
  induction moves with
  | refl => exact ⟨sound, .refl⟩
  | tail _ move ih =>
    obtain ⟨before, path⟩ := ih
    exact ⟨before.tail move, path.tail (before.step move)⟩

/-- A client adds an object. -/
theorem daemon_refines_bus_add : ∃ sound : Sound Blob.libubox (run Blob.libubox addRun State.init),
    sound.world.bus.reg.path = [(cstr "foo", 4)] ∧
    ReflTransGen (World.Step Blob.libubox) (State.init.world good_init) sound.world := by
  have start : Sound Blob.libubox State.init := .refl
  obtain ⟨sound, path⟩ := daemon_refines_bus start (sound_run Blob.libubox addRun (by decide))
  have added : (run Blob.libubox addRun State.init).reg.path = [(cstr "foo", 4)] := by decide +kernel
  exact ⟨sound, added, path⟩

end Sound

end Ubus
