/-
**What sending leaves alone.**

`Frame events keep keepFd s s'`: between `s` and `s'` messages were sent and nothing else happened. The
registry and the receiving sides of the clients are as before, the buffers of `keep` have the same
contents and descriptor, and every new entry of the trace is one of `events`.

* `Wire` — such a step of the transport: sequence numbers are as before, and queues only grow.
* `Wire.trans` composes; there is one `wire_…` lemma for each function of the transmit path.
-/

import Ubus.Transport

namespace Ubus

variable {ub cl : Nat} {record : MonitorRecord}

/-- Sending happened between two states. -/
structure Frame (events : Event → Prop) (keep keepFd : Nat → Prop) (s s' : State) : Prop where
  reg : s'.reg = s.reg
  cause : s'.cause = s.cause
  rnd : s'.rnd = s.rnd
  fault : s'.fault = s.fault
  socks : s'.net.socks = s.net.socks
  fdBrk : s'.net.fdBrk = s.net.fdBrk
  monitors : s'.net.monitors.map Monitor.cl = s.net.monitors.map Monitor.cl
  rx : ∀ cl, (s'.net.sock cl).rx = (s.net.sock cl).rx
  cmdQueue : ∀ cl, (s'.net.sock cl).cmdQueue = (s.net.sock cl).cmdQueue
  retmsg : ∀ cl, (s'.net.sock cl).retmsg = (s.net.sock cl).retmsg
  brk : s.net.brk ≤ s'.net.brk
  hdr : ∀ ub, keep ub → (s'.net.buf ub).hdr = (s.net.buf ub).hdr
  data : ∀ ub, keep ub → (s'.net.buf ub).data = (s.net.buf ub).data
  fd : ∀ ub, keepFd ub → (s'.net.buf ub).fd = (s.net.buf ub).fd
  trace : ∃ new, s'.trace = new ++ s.trace ∧ ∀ event ∈ new, events event
  allocs : s'.allocs <:+ s.allocs

namespace Frame

variable {events : Event → Prop} {keep keepFd : Nat → Prop} {s s' s'' : State}

theorem of_net (net : s'.net = s.net) (reg : s'.reg = s.reg) (cause : s'.cause = s.cause)
    (rnd : s'.rnd = s.rnd) (fault : s'.fault = s.fault) (trace : s'.trace = s.trace)
    (allocs : s'.allocs <:+ s.allocs) : Frame events keep keepFd s s' := by
  refine ⟨reg, cause, rnd, fault, ?_, ?_, ?_, ?_, ?_, ?_, ?_, ?_, ?_, ?_, ⟨[], trace, by simp⟩, allocs⟩ <;>
    rw [net] <;> simp

theorem refl (s : State) : Frame events keep keepFd s s :=
  of_net rfl rfl rfl rfl rfl rfl List.suffix_rfl

theorem trans (one : Frame events keep keepFd s s') (two : Frame events keep keepFd s' s'') :
    Frame events keep keepFd s s'' := by
  obtain ⟨new, trace, all⟩ := one.trace
  obtain ⟨new', trace', all'⟩ := two.trace
  refine ⟨two.reg.trans one.reg, two.cause.trans one.cause, two.rnd.trans one.rnd,
    two.fault.trans one.fault, two.socks.trans one.socks, two.fdBrk.trans one.fdBrk,
    two.monitors.trans one.monitors, fun cl => (two.rx cl).trans (one.rx cl),
    fun cl => (two.cmdQueue cl).trans (one.cmdQueue cl),
    fun cl => (two.retmsg cl).trans (one.retmsg cl), one.brk.trans two.brk,
    fun ub kept => (two.hdr ub kept).trans (one.hdr ub kept),
    fun ub kept => (two.data ub kept).trans (one.data ub kept),
    fun ub kept => (two.fd ub kept).trans (one.fd ub kept),
    ⟨new' ++ new, by rw [trace', trace, List.append_assoc], ?_⟩, two.allocs.trans one.allocs⟩
  intro event member
  rcases List.mem_append.mp member with member | member
  · exact all' event member
  · exact all event member

theorem mono {events' : Event → Prop} {keep' keepFd' : Nat → Prop}
    (frame : Frame events keep keepFd s s') (more : ∀ event, events event → events' event)
    (less : ∀ ub, keep' ub → keep ub) (lessFd : ∀ ub, keepFd' ub → keepFd ub) :
    Frame events' keep' keepFd' s s' := by
  obtain ⟨new, trace, all⟩ := frame.trace
  exact ⟨frame.reg, frame.cause, frame.rnd, frame.fault, frame.socks, frame.fdBrk, frame.monitors,
    frame.rx, frame.cmdQueue, frame.retmsg, frame.brk, fun ub kept => frame.hdr ub (less ub kept),
    fun ub kept => frame.data ub (less ub kept), fun ub kept => frame.fd ub (lessFd ub kept),
    ⟨new, trace, fun event member => more event (all event member)⟩, frame.allocs⟩

theorem moment (frame : Frame events keep keepFd s s') : s'.moment = s.moment := by
  rw [State.moment, frame.reg, frame.cause]
  rfl

theorem mem_socks (frame : Frame events keep keepFd s s') (known : cl ∈ s.net.socks) :
    cl ∈ s'.net.socks := frame.socks ▸ known

end Frame

/-- The transport worked: sequence numbers are not touched, and queues only grow. -/
structure Wire (events : Event → Prop) (keep keepFd : Nat → Prop) (s s' : State) : Prop extends
    Frame events keep keepFd s s' where
  stamps : s'.stamps = s.stamps
  txQueue : ∀ cl, (s.net.sock cl).tx.txQueue <+: (s'.net.sock cl).tx.txQueue

namespace Wire

variable {events : Event → Prop} {keep keepFd : Nat → Prop} {s s' s'' : State}

theorem of_sock (frame : Frame events keep keepFd s s') (stamps : s'.stamps = s.stamps)
    (sock : s'.net.sock = s.net.sock) : Wire events keep keepFd s s' :=
  ⟨frame, stamps, fun _ => by simp only [sock, List.prefix_rfl]⟩

theorem refl (s : State) : Wire events keep keepFd s s := of_sock (Frame.refl s) rfl rfl

theorem trans (one : Wire events keep keepFd s s') (two : Wire events keep keepFd s' s'') :
    Wire events keep keepFd s s'' :=
  ⟨one.toFrame.trans two.toFrame, two.stamps.trans one.stamps, fun cl =>
    (one.txQueue cl).trans (two.txQueue cl)⟩

theorem foldl {ι : Type} (Inv : State → Prop) (body : State → ι → State) (items : List ι)
    (round : ∀ s item, item ∈ items → Inv s → Wire events keep keepFd s (body s item) ∧ Inv (body s item))
    (start : Inv s) : Wire events keep keepFd s (items.foldl body s) := by
  induction items generalizing s with
  | nil => exact refl s
  | cons item rest ih =>
    obtain ⟨first, inv⟩ := round s item List.mem_cons_self start
    exact first.trans (ih (fun s other member => round s other (List.mem_cons_of_mem _ member)) inv)

end Wire

/-! ### Buffers -/

section Buffers

variable {events : Event → Prop} {keep keepFd : Nat → Prop}

theorem calloc_net (s : State) : s.calloc.2.net = s.net := by
  unfold State.calloc
  split <;> rfl

theorem wire_calloc (s : State) : Wire events keep keepFd s s.calloc.2 := by
  unfold State.calloc
  split
  · exact Wire.refl s
  rename_i ok rest allocs
  exact .of_sock (.of_net rfl rfl rfl rfl rfl rfl (allocs ▸ List.suffix_cons ok rest)) rfl rfl

theorem wire_nextWrite (s : State) : Wire events keep keepFd s s.nextWrite.2 := by
  unfold State.nextWrite
  split
  · exact Wire.refl s
  · exact .of_sock (.of_net rfl rfl rfl rfl rfl rfl List.suffix_rfl) rfl rfl

theorem wire_mapBuf {s : State} (f : MsgBuf → MsgBuf)
    (hdr : keep ub → (f (s.net.buf ub)).hdr = (s.net.buf ub).hdr)
    (data : keep ub → (f (s.net.buf ub)).data = (s.net.buf ub).data)
    (fd : keepFd ub → (f (s.net.buf ub)).fd = (s.net.buf ub).fd) :
    Wire events keep keepFd s (s.mapBuf ub f) := by
  have all : ∀ other, (keep other → ((s.mapBuf ub f).net.buf other).hdr = (s.net.buf other).hdr ∧
      ((s.mapBuf ub f).net.buf other).data = (s.net.buf other).data) ∧
      (keepFd other → ((s.mapBuf ub f).net.buf other).fd = (s.net.buf other).fd) := by
    intro other
    simp only [State.mapBuf, Function.update_apply]
    split
    · rename_i same
      subst same
      exact ⟨fun kept => ⟨hdr kept, data kept⟩, fd⟩
    · exact ⟨fun _ => ⟨rfl, rfl⟩, fun _ => rfl⟩
  exact .of_sock ⟨rfl, rfl, rfl, rfl, rfl, rfl, rfl, fun _ => rfl, fun _ => rfl, fun _ => rfl, le_rfl,
    fun ub kept => ((all ub).1 kept).1, fun ub kept => ((all ub).1 kept).2,
    fun ub kept => (all ub).2 kept, ⟨[], rfl, by simp⟩, List.suffix_rfl⟩ rfl rfl

theorem wire_mapBuf_free {s : State} (f : MsgBuf → MsgBuf) (free : ¬ (keep ub ∨ keepFd ub)) :
    Wire events keep keepFd s (s.mapBuf ub f) :=
  wire_mapBuf f (fun kept => absurd (Or.inl kept) free) (fun kept => absurd (Or.inl kept) free)
    fun kept => absurd (Or.inr kept) free

theorem frame_mapTx {s : State} (cl : Nat) (f : Tx → Tx) : Frame events keep keepFd s (s.mapTx cl f) :=
  ⟨rfl, rfl, rfl, rfl, rfl, rfl, rfl, update_keeps Sock.rx s.net.sock (by rfl),
    update_keeps Sock.cmdQueue s.net.sock (by rfl), update_keeps Sock.retmsg s.net.sock (by rfl), le_rfl,
    fun _ _ => rfl, fun _ _ => rfl, fun _ _ => rfl, ⟨[], rfl, by simp⟩, List.suffix_rfl⟩

theorem wire_mapTx {s : State} (cl : Nat) {f : Tx → Tx} (grows : ∀ tx : Tx, tx.txQueue <+: (f tx).txQueue) :
    Wire events keep keepFd s (s.mapTx cl f) := by
  refine ⟨frame_mapTx cl f, rfl, fun other => ?_⟩
  show _ <+: (Function.update s.net.sock cl _ other).tx.txQueue
  by_cases same : other = cl
  · subst same
    rw [Function.update_self]
    exact grows _
  · simp only [Function.update_of_ne same, List.prefix_rfl]

theorem frame_stamps {s : State} (stamps : Stamps) : Frame events keep keepFd s { s with stamps } :=
  .of_net rfl rfl rfl rfl rfl rfl List.suffix_rfl

theorem wire_allocBuf {s : State} (data : Payload) (shared : Bool)
    (free : ¬ (keep s.net.brk ∨ keepFd s.net.brk)) :
    Wire events keep keepFd s (allocBuf data shared s) := by
  have bufs : Wire events keep keepFd s (s.mapBuf s.net.brk fun _ =>
    { refcount := if shared then .external else .count 1, data, live := true }) :=
    wire_mapBuf_free _ free
  exact .of_sock ⟨rfl, rfl, rfl, rfl, rfl, rfl, rfl, fun _ => rfl, fun _ => rfl, fun _ => rfl,
    Nat.le_succ _, bufs.hdr, bufs.data, bufs.fd, ⟨[], rfl, by simp⟩, List.suffix_rfl⟩ rfl rfl

theorem wire_log {s : State} {event : Event} (admitted : events event) :
    Wire events keep keepFd s (s.log event) :=
  .of_sock ⟨rfl, rfl, rfl, rfl, rfl, rfl, rfl, fun _ => rfl, fun _ => rfl, fun _ => rfl, le_rfl,
    fun _ _ => rfl, fun _ _ => rfl, fun _ _ => rfl, ⟨[event], rfl, by simpa using admitted⟩,
    List.suffix_rfl⟩ rfl rfl

theorem wire_closeFd (fd : Option Nat) (s : State) : Wire events keep keepFd s (closeFd fd s) := by
  cases fd with
  | none => exact Wire.refl s
  | some fd => exact .of_sock ⟨rfl, rfl, rfl, rfl, rfl, rfl, rfl, fun _ => rfl, fun _ => rfl, fun _ => rfl,
      le_rfl, fun _ _ => rfl, fun _ _ => rfl, fun _ _ => rfl, ⟨[], rfl, by simp⟩, List.suffix_rfl⟩ rfl rfl

theorem wire_free (ub : Nat) (s : State) : Wire events keep keepFd s (ubusMsgFree ub s) := by
  have release : Wire events keep keepFd s (msgRelease ub s) :=
    (wire_closeFd _ s).trans (wire_mapBuf _ (fun _ => rfl) (fun _ => rfl) fun _ => rfl)
  unfold ubusMsgFree
  split
  · exact release
  · exact release
  · exact wire_mapBuf _ (fun _ => rfl) (fun _ => rfl) fun _ => rfl

theorem ubusMsgNew_cases (data : Payload) (shared : Bool) (s : State) :
    ubusMsgNew data shared s = (none, s.calloc.2) ∨
      ubusMsgNew data shared s = (some s.net.brk, allocBuf data shared s.calloc.2) := by
  have brk : s.calloc.2.net.brk = s.net.brk := by rw [calloc_net]
  unfold ubusMsgNew
  rcases called : s.calloc with ⟨_ | _, s'⟩
  · exact Or.inl rfl
  · rw [called] at brk
    exact Or.inr (by rw [← brk])

theorem ubusMsgNew_old {data : Payload} {shared : Bool} {s t : State} {new : Option Nat}
    (made : ubusMsgNew data shared s = (new, t)) (old : ub < s.net.brk) : t.net.buf ub = s.net.buf ub := by
  rcases ubusMsgNew_cases data shared s with failed | some' <;> [rw [failed] at made; rw [some'] at made] <;>
    cases made <;> simp [allocBuf, State.mapBuf, calloc_net, old.ne]

theorem calloc_brk (s : State) : s.calloc.2.net.brk = s.net.brk := by
  rw [calloc_net]

theorem wire_new {s : State} (data : Payload) (shared : Bool)
    (bound : ∀ ub, keep ub ∨ keepFd ub → ub < s.net.brk) :
    Wire events keep keepFd s (ubusMsgNew data shared s).2 := by
  rcases ubusMsgNew_cases data shared s with failed | made
  · rw [failed]
    exact wire_calloc s
  rw [made]
  refine (wire_calloc s).trans (wire_allocBuf data shared fun kept => ?_)
  rw [calloc_brk] at kept
  exact absurd (bound _ kept) (lt_irrefl _)

theorem wire_ref {s : State} (bound : ∀ ub, keep ub ∨ keepFd ub → ub < s.net.brk)
    (free : ¬ keepFd ub) : Wire events keep keepFd s (ubusMsgRef ub s).2 := by
  unfold ubusMsgRef
  split
  · have made : Wire events keep keepFd s (ubusMsgNew (s.buf ub).data false s).2 :=
      wire_new _ _ bound
    rcases ubusMsgNew_cases (s.buf ub).data false s with failed | some'
    · rw [failed] at made
      simpa only [failed] using made
    have freeNew : ¬ (keep s.net.brk ∨ keepFd s.net.brk) := fun kept =>
      absurd (bound _ kept) (lt_irrefl _)
    rw [some'] at made
    simp only [some']
    exact made.trans ((wire_mapBuf_free _ freeNew).trans
      (wire_mapBuf _ (fun _ => rfl) (fun _ => rfl) fun kept => absurd kept free))
  · rename_i n count
    exact wire_mapBuf (fun buf => { buf with refcount := .count (n + 1) }) (fun _ => rfl)
      (fun _ => rfl) fun _ => rfl

end Buffers

/-! ### The transmit path -/

section Transmit

variable (lib : Libubox) {events : Event → Prop} {keep keepFd : Nat → Prop}

theorem wire_writev (cl ub offset : Nat) (out : WriteOutcome) (s : State) :
    Wire events keep keepFd s (ubusMsgWritev lib cl ub offset out s).2 := by
  unfold ubusMsgWritev
  cases out with
  | again => exact Wire.refl s
  | error => exact Wire.refl s
  | sent extra =>
    simp only
    exact wire_mapTx cl (by exact fun _ => List.prefix_rfl)

theorem wire_enqueue {s : State} (bound : ∀ ub, keep ub ∨ keepFd ub → ub < s.net.brk)
    (free : ¬ keepFd ub) : Wire events keep keepFd s (ubusMsgEnqueue lib cl ub s).2 := by
  unfold ubusMsgEnqueue
  split
  · exact Wire.refl s
  have called : Wire events keep keepFd s s.calloc.2 := wire_calloc s
  have bound' : ∀ ub, keep ub ∨ keepFd ub → ub < s.calloc.2.net.brk := by rwa [calloc_brk]
  rcases result : s.calloc with ⟨_ | _, s'⟩
  · rw [result] at called
    simpa only using called
  rw [result] at called bound'
  have made : Wire events keep keepFd s' (ubusMsgRef ub s').2 := wire_ref bound' free
  simp only
  rcases result' : ubusMsgRef ub s' with ⟨_ | msg, s''⟩
  · rw [result'] at made
    exact called.trans made
  · rw [result'] at made
    simp only
    exact (called.trans made).trans (wire_mapTx cl (by exact fun tx => List.prefix_append tx.txQueue [msg]))

theorem wire_enqueueRest {s : State} (started : Bool)
    (bound : ∀ ub, keep ub ∨ keepFd ub → ub < s.net.brk) (free : ¬ keepFd ub) :
    Wire events keep keepFd s (enqueueRest lib cl ub started s) := by
  have queued : Wire events keep keepFd s (ubusMsgEnqueue lib cl ub s).2 := wire_enqueue lib bound free
  unfold enqueueRest
  rcases result : ubusMsgEnqueue lib cl ub s with ⟨_ | _, s'⟩
  · rw [result] at queued
    simp only
    split
    · exact queued.trans (wire_mapTx cl (by exact fun _ => List.prefix_rfl))
    · exact queued
  · rw [result] at queued
    simpa only using queued

theorem wire_transmit {s : State} (bound : ∀ ub, keep ub ∨ keepFd ub → ub < s.net.brk)
    (free : ¬ keepFd ub) : Wire events keep keepFd s (transmit lib cl ub s) := by
  unfold transmit
  split
  · have both : Wire events keep keepFd s
        (ubusMsgWritev lib cl ub 0 s.nextWrite.1 s.nextWrite.2).2 :=
      (wire_nextWrite s).trans (wire_writev lib cl ub 0 _ _)
    simp only
    split
    · exact both
    · refine (both.trans (wire_mapTx cl (by exact fun _ => List.prefix_rfl))).trans (wire_enqueueRest lib _ ?_ free)
      exact fun ub kept => lt_of_lt_of_le (bound ub kept) both.brk
  · exact wire_enqueueRest lib _ bound free

/-- The record of a message is among the admitted entries, whoever gets it. -/
def AdmitsRecord (events : Event → Prop) (moment : Moment) (record : MonitorRecord) : Prop :=
  ∀ dest hdr, hdr.type = MsgType.monitor.code → hdr.version = 0 →
    events (.submit moment dest hdr (.monitor record))

/-- With a message that is not itself a record, its records are admitted. -/
def AdmitsMonitor (events : Event → Prop) (moment : Moment) : Prop :=
  ∀ cl buf, buf.hdr.type ≠ MsgType.monitor.code → events (.submit moment cl buf.hdr buf.data) →
    AdmitsRecord events moment (monitorRecord lib (moment.reg.client cl) buf true)

theorem wire_monitorSend {s : State} (bound : ∀ ub, keep ub ∨ keepFd ub → ub < s.net.brk)
    (free : ¬ keepFd ub) (admitted : events (.submit s.moment cl (s.buf ub).hdr (s.buf ub).data)) :
    Wire events keep keepFd s (monitorSend lib cl ub s) := by
  have logged : Wire events keep keepFd s (logSubmit cl ub s) := wire_log admitted
  unfold monitorSend
  simp only
  split
  · exact logged
  · exact logged.trans (wire_transmit lib bound free)

theorem wire_bumpMonitor (m : Monitor) (s : State) :
    Wire events keep keepFd s (bumpMonitor m s) := by
  refine .of_sock ⟨rfl, rfl, rfl, rfl, rfl, rfl, ?_, fun _ => rfl, fun _ => rfl, fun _ => rfl, le_rfl,
    fun _ _ => rfl, fun _ _ => rfl, fun _ _ => rfl, ⟨[], rfl, by simp⟩, List.suffix_rfl⟩ rfl rfl
  simp only [bumpMonitor, List.map_map]
  refine List.map_congr_left fun other _ => ?_
  simp only [Function.comp_apply]
  split <;> rfl

theorem wire_monitorStamp {s : State} (m : Monitor) (free : ¬ (keep ub ∨ keepFd ub)) :
    Wire events keep keepFd s (monitorStamp ub m s) := by
  unfold monitorStamp State.mapHdr
  exact (wire_bumpMonitor m s).trans (wire_mapBuf_free _ free)

/-- A buffer with a monitor record. -/
structure IsRecord (record : MonitorRecord) (buf : MsgBuf) : Prop where
  type : buf.hdr.type = MsgType.monitor.code
  version : buf.hdr.version = 0
  data : buf.data = .monitor record

theorem monitorStamp_record {s : State} (m : Monitor) (isRecord : IsRecord record (s.buf ub)) :
    IsRecord record ((monitorStamp ub m s).buf ub) := by
  obtain ⟨type, version, data⟩ := isRecord
  constructor <;> simpa [monitorStamp, bumpMonitor, State.mapHdr, State.mapBuf]

theorem wire_monitorDeliver {s : State} (m : Monitor)
    (bound : ∀ ub, keep ub ∨ keepFd ub → ub < s.net.brk) (free : ¬ (keep ub ∨ keepFd ub))
    (admits : AdmitsRecord events s.moment record) (isRecord : IsRecord record (s.buf ub)) :
    Wire events keep keepFd s (monitorDeliver lib ub s m) := by
  have stamped := monitorStamp_record m isRecord
  refine (wire_monitorStamp m free).trans
    (wire_monitorSend lib bound (fun kept => free (Or.inr kept)) ?_)
  rw [stamped.data]
  exact admits _ _ stamped.type stamped.version

theorem monitorDeliver_record {s : State} (m : Monitor) (below : ub < s.net.brk)
    (isRecord : IsRecord record (s.buf ub)) :
    IsRecord record ((monitorDeliver lib ub s m).buf ub) := by
  have sent : Wire (fun _ => True) (· = ub) (fun _ => False) (monitorStamp ub m s)
      (monitorDeliver lib ub s m) := by
    refine wire_monitorSend lib ?_ id trivial
    rintro other (rfl | absurd)
    · exact below
    · exact absurd.elim
  obtain ⟨type, version, data⟩ := monitorStamp_record m isRecord
  exact ⟨by rw [State.buf, sent.hdr ub rfl]; exact type,
    by rw [State.buf, sent.hdr ub rfl]; exact version,
    by rw [State.buf, sent.data ub rfl]; exact data⟩

theorem wire_monitorMessage {send : Bool} {s : State}
    (bound : ∀ ub, keep ub ∨ keepFd ub → ub < s.net.brk)
    (admits : AdmitsRecord events s.moment (monitorRecord lib (s.reg.client cl) (s.buf ub) send)) :
    Wire events keep keepFd s (ubusdMonitorMessage lib cl ub send s) := by
  unfold ubusdMonitorMessage
  split
  · exact Wire.refl s
  generalize monitorRecord lib (s.reg.client cl) (s.buf ub) send = record at admits ⊢
  have made : Wire events keep keepFd s (ubusMsgNew (.monitor record) true s).2 :=
    wire_new _ _ bound
  rcases ubusMsgNew_cases (.monitor record) true s with failed | some'
  · rw [failed] at made
    simpa only [failed] using made
  have free : ¬ (keep s.net.brk ∨ keepFd s.net.brk) := fun kept =>
    absurd (bound _ kept) (lt_irrefl _)
  rw [some'] at made
  simp only [some']
  have typed : Wire events keep keepFd s ((allocBuf (.monitor record) true s.calloc.2).mapHdr
      s.net.brk fun hdr => { hdr with type := MsgType.monitor.code }) :=
    made.trans (wire_mapBuf_free _ free)
  refine (typed.trans (Wire.foldl (fun s' => s.net.brk < s'.net.brk ∧ s'.moment = s.moment ∧
    IsRecord record (s'.buf s.net.brk)) (monitorDeliver lib s.net.brk) _ ?_ ?_)).trans
    (wire_free _ _)
  · rintro s' m - ⟨below, moment, isRecord⟩
    have bound' : ∀ ub, keep ub ∨ keepFd ub → ub < s'.net.brk := fun ub kept =>
      lt_trans (bound ub kept) below
    have sent := wire_monitorDeliver lib m bound' free (moment ▸ admits) isRecord
    exact ⟨sent, lt_of_lt_of_le below sent.brk, sent.moment.trans moment,
      monitorDeliver_record lib m below isRecord⟩
  · refine ⟨?_, typed.moment, ?_, ?_, ?_⟩ <;>
      simp [State.mapHdr, State.mapBuf, allocBuf, calloc_net]

/-- **`ubus_msg_send`**: the message is recorded, and monitor records before it. -/
theorem wire_send {s : State} (bound : ∀ ub, keep ub ∨ keepFd ub → ub < s.net.brk)
    (free : ¬ keepFd ub) (below : ub < s.net.brk) (admits : AdmitsMonitor lib events s.moment)
    (admitted : events (.submit s.moment cl (s.buf ub).hdr (s.buf ub).data)) :
    Wire events keep keepFd s (ubusMsgSend lib cl ub s) := by
  unfold ubusMsgSend
  split
  · exact wire_log admitted
  simp only
  have monitored : ∀ {events : Event → Prop} {keep keepFd : Nat → Prop},
      (∀ ub, keep ub ∨ keepFd ub → ub < s.net.brk) → AdmitsMonitor lib events s.moment →
      events (.submit s.moment cl (s.buf ub).hdr (s.buf ub).data) →
      Wire events keep keepFd s (if (s.buf ub).hdr.type ≠ MsgType.monitor.code then
        ubusdMonitorMessage lib cl ub true s else s) := by
    intro events keep keepFd bound admits admitted
    split
    · rename_i plain
      exact wire_monitorMessage lib bound (admits cl (s.buf ub) plain admitted)
    · exact Wire.refl s
  have self : Wire (fun _ => True) (· = ub) (fun _ => False) s _ :=
    monitored (fun other same => by rcases same with rfl | none; exacts [below, none.elim])
      (fun _ _ _ _ _ _ _ _ => trivial) trivial
  have outer := monitored bound admits admitted
  refine (outer.trans (wire_log ?_)).trans (wire_transmit lib ?_ free)
  · rw [self.moment, State.buf, self.hdr ub rfl, self.data ub rfl]
    exact admitted
  · exact fun ub kept => lt_of_lt_of_le (bound ub kept) outer.brk

theorem sendTo_keeps {cl : Option Nat} {s : State} (below : ub < s.net.brk) :
    s.net.brk ≤ (ubusMsgSendTo lib cl ub s).net.brk ∧ ∀ b < s.net.brk,
      ((ubusMsgSendTo lib cl ub s).net.buf b).hdr = (s.net.buf b).hdr ∧
        ((ubusMsgSendTo lib cl ub s).net.buf b).data = (s.net.buf b).data := by
  cases cl with
  | none => exact ⟨le_rfl, fun _ _ => ⟨rfl, rfl⟩⟩
  | some cl =>
    have frame : Wire (fun _ => True) (· < s.net.brk) (fun _ => False) s
        (ubusMsgSend lib cl ub s) :=
      wire_send lib (fun other kept => kept.elim id False.elim) id below
        (fun _ _ _ _ _ _ _ _ => trivial) trivial
    exact ⟨frame.brk, fun b old => ⟨frame.hdr b old, frame.data b old⟩⟩

end Transmit

end Ubus
