/-
**The stream to a client is framed.**

The bytes on a client's socket are whole messages, in the order in which they were submitted and as they
were then; only the last one may be incomplete. This holds for every client that has not asked to be a
monitor: the record of a message may end the stream of its own receiver.

* `Tug.framed`, `Tug.closed`: one step of a pipe keeps its framing, and a pipe that has ended and is
  empty stays as it is.
* `stream_framed`: so every stream is framed in every state, until its client is gone.
-/

import Ubus.Arrival
import Ubus.Changes
import Ubus.Lanes
import Ubus.Safety

namespace Ubus

open Lib Relation

variable {ub written retmsg : Nat} {calls msgs : List Bytes} {seq : UInt16}
  {next : Bytes → Bytes → Prop} {writes rest : List WriteOutcome} {wire tail : Bytes}
  {out : WriteOutcome}

/-- **The bytes are whole messages**, in order, and then a part of at most one more. -/
def Frames (calls : List Bytes) (wire : Bytes) (next : Bytes → Bytes → Prop) : Prop :=
  ∃ whole part, wire = whole.flatten ++ part ∧ (part = [] ∧ whole.Sublist calls ∨
    ∃ msg, (whole ++ [msg]).Sublist calls ∧ part <+: msg ∧ part ≠ msg ∧ next part msg)

/-- What is queued for a client and not yet written. -/
def unsent (lib : Libubox) (s : State) (cl : Nat) : Bytes :=
  ((s.tx cl).txQueue.map fun ub => (s.buf ub).bytes lib).flatten.drop (s.tx cl).txqOfs

section Framing

variable {lib : Libubox} {mon may : Nat → Prop} {watched fund : Prop} {hush : Pipe UInt8 → Prop}
  {l l' : Lane} {cl : Nat} {s s' : State}

theorem Frames.mono {next' : Bytes → Bytes → Prop} (frames : Frames calls wire next)
    (more : ∀ part msg, next part msg → next' part msg) : Frames calls wire next' := by
  obtain ⟨whole, part, is, all | ⟨msg, among, begins, proper, rest⟩⟩ := frames
  · exact ⟨whole, part, is, Or.inl all⟩
  · exact ⟨whole, part, is, Or.inr ⟨msg, among, begins, proper, more part msg rest⟩⟩

/-- **A step keeps the framing** of a client that does not watch itself. -/
theorem Tug.framed (tug : Tug watched fund hush l l') (free : ¬ watched) (framed : Framed l.calls l.pipe) :
    Framed l'.calls l'.pipe := by
  cases tug with
  | refused msg ended => exact framed.more msg
  | sent msg count room opened filled most granted kept =>
    exact framed.transmit (Bool.eq_false_iff.mpr fun ended => free (opened ended)) filled count room
  | drained count bound => exact framed.drain bound
  | hung hup =>
    refine ⟨⟨framed.sane.filled, framed.sane.inside⟩, framed.holds.imp_right ?_⟩
    rintro ⟨whole, msg, count, among, least, less, stream, ended, empty⟩
    exact ⟨whole, msg, count, among, least, less, stream, by simp [ended], empty⟩
  | quieted idle => exact ⟨⟨framed.sane.filled, framed.sane.inside⟩, framed.holds⟩

theorem tugs_framed (tugs : Tugs watched fund hush l l') (free : ¬ watched) (framed : Framed l.calls l.pipe) :
    Framed l'.calls l'.pipe := by
  induction tugs with
  | refl => exact framed
  | tail _ tug ih => exact tug.framed free ih

/-- **A stream that has ended is left alone** once its queue is empty. -/
theorem Tug.closed (tug : Tug watched fund hush l l') (free : ¬ watched)
    (closed : l.pipe.ended = true ∧ l.pipe.queue = []) :
    (l'.pipe.ended = true ∧ l'.pipe.queue = []) ∧ l'.pipe.wire = l.pipe.wire := by
  cases tug with
  | refused msg ended => exact ⟨closed, rfl⟩
  | sent msg count room opened filled most granted kept => exact absurd (opened closed.1) free
  | drained count bound =>
    rw [drain_of_empty closed.2]
    exact ⟨closed, rfl⟩
  | hung hup => exact ⟨⟨by simp [closed.1], closed.2⟩, rfl⟩
  | quieted idle => exact ⟨closed, rfl⟩

theorem tugs_closed (tugs : Tugs watched fund hush l l') (free : ¬ watched)
    (closed : l.pipe.ended = true ∧ l.pipe.queue = []) :
    (l'.pipe.ended = true ∧ l'.pipe.queue = []) ∧ l'.pipe.wire = l.pipe.wire := by
  induction tugs with
  | refl => exact ⟨closed, rfl⟩
  | tail _ tug ih =>
    obtain ⟨closed', wire⟩ := tug.closed free ih.1
    exact ⟨closed', wire.trans ih.2⟩

/-! ### Runs -/

/-- **Every pipe is framed** in every state that a run goes through. -/
theorem Reachable.framed (reachable : Reachable lib s) (known : cl ∈ s.net.socks)
    (free : ¬ Watched lib s.trace cl) : Framed (submissions lib s.trace cl) (s.pipe lib cl) := by
  induction reachable with
  | refl => cases known
  | @tail s s' before move ih =>
    have inv := Reachable.inv before
    have more := (move.turn inv).trace_grows
    obtain ⟨l, start, tugs⟩ := (move.lanes inv (Reachable.afloat before) False.elim).2 cl known
    refine tugs_framed tugs free ?_
    rcases start with ⟨known', rfl⟩ | ⟨-, rfl⟩
    · exact ih known' fun watched => free (watched.mono more)
    · exact framed_new _

theorem moves_closed (reachable : Reachable lib s) (moves : ReflTransGen (Move lib) s s')
    (old : cl < s.reg.brk) (known : cl ∈ s'.net.socks) (free : ¬ Watched lib s'.trace cl)
    (closed : (s.pipe lib cl).ended = true ∧ (s.pipe lib cl).queue = []) :
    ((s'.pipe lib cl).ended = true ∧ (s'.pipe lib cl).queue = []) ∧
      (s'.pipe lib cl).wire = (s.pipe lib cl).wire := by
  induction moves with
  | refl => exact ⟨closed, rfl⟩
  | @tail t u before move ih =>
    have between : Reachable lib t := reachable.trans before
    have inv := Reachable.inv between
    have more := (move.turn inv).trace_grows
    have still : cl ∈ t.net.socks := by
      refine (inv.clients cl).mp ((moves_clients between (.single move)).2 cl ?_ ?_)
      · exact old.trans_le (moves_clients reachable before).1
      · exact ((move.inv inv).clients cl).mpr known
    obtain ⟨l, ⟨-, rfl⟩ | ⟨gone, -⟩, tugs⟩ :=
      (move.lanes inv (Reachable.afloat between) False.elim).2 cl known
    · obtain ⟨closed', wire⟩ := ih still fun watched => free (watched.mono more)
      obtain ⟨closed'', wire'⟩ := tugs_closed tugs free closed'
      exact ⟨closed'', wire'.trans wire⟩
    · exact absurd still gone

theorem frames_of_framed (framed : Framed calls (s.pipe lib cl)) :
    Frames calls (s.tx cl).wire fun part msg =>
      msg <+: part ++ unsent lib s cl ∨ (s.tx cl).eof = true ∧ (s.tx cl).txQueue = [] := by
  have frames : Frames calls (s.tx cl).wire _ := framed.wire
  refine frames.mono fun part msg next => next.imp_right ?_
  rintro ⟨ended, empty⟩
  exact ⟨ended, List.map_eq_nil_iff.mp empty⟩

theorem disconnect_framed (afloat : Afloat lib False s) (free : ¬ Watched lib s.trace cl)
    (framed : Framed (submissions lib s.trace cl) (s.pipe lib cl)) :
    Frames (submissions lib (handleClientDisconnect lib cl s).trace cl)
        ((handleClientDisconnect lib cl s).tx cl).wire (fun _ _ => True) ∧
      ((s.pipe lib cl).ended = true ∧ (s.pipe lib cl).queue = [] →
        ((handleClientDisconnect lib cl s).tx cl).wire = (s.tx cl).wire) := by
  obtain ⟨t, shipped, drops⟩ : ∃ t, Shipped lib (Watched lib s.trace) False (fun _ => True) s t ∧
    Drops lib cl t (handleClientDisconnect lib cl s) := shipped_disconnect afloat.tidy cl
  have calls : submissions lib (handleClientDisconnect lib cl s).trace = submissions lib t.trace := drops.calls
  rw [drops.wire, calls]
  have tugs : Tugs (Watched lib s.trace cl) False (Hush s cl) (s.lane lib cl) (t.lane lib cl) := shipped.tugs cl
  have framed' := tugs_framed tugs free framed
  refine ⟨(frames_of_framed framed').mono fun _ _ _ => trivial, fun closed => ?_⟩
  exact (tugs_closed tugs free closed).2

/-- A client whose HELLO is cut after five bytes. -/
def cutRun : List Input := [{ connects rootCred 5000 with writes := [.sent 4] }]

def Event.accepts : Event → Bool
  | .accept .. => true
  | _ => false

/-- Of a message that is too long for the queue, at most the first byte is written. -/
def Tx.cut (written : Nat) (tx : Tx) : Tx :=
  { tx with
    eof := tx.eof || 0 < written, writeInterest := true, txqOfs := written, txqLen := -written
    wire := tx.wire ++ List.replicate written 0 }

/-- One `sendmsg` that writes at most a byte. -/
def Cuts (out : WriteOutcome) (written : Nat) : Prop :=
  out = .again ∧ written = 0 ∨ out = .sent 0 ∧ written = 1

theorem enqueueRest_over {size : Nat} (started : Bool) (least : written ≤ 1)
    (large : ubusClientMaxTxqLen + 1 < size) (most : size < 2 ^ 64)
    (is : (s.buf ub).size lib = size) (len : (s.tx cl).txqLen = -written) :
    enqueueRest lib cl ub started s =
      if started then s.mapTx cl fun tx => { tx with eof := true } else s := by
  have total : txqTotal lib (s.tx cl).txqLen (s.buf ub) > ubusClientMaxTxqLen := by
    unfold txqTotal
    rw [len, is, Int.emod_eq_of_lt] <;> omega
  simp only [enqueueRest, ubusMsgEnqueue, if_pos total]

theorem transmit_over (empty : (s.tx cl).txQueue = []) (next : s.writes = out :: rest)
    (cuts : Cuts out written) (version : (s.buf ub).hdr.version = 0)
    (large : ubusClientMaxTxqLen + 1 < (s.buf ub).size lib) (most : (s.buf ub).size lib < 2 ^ 64) :
    transmit lib cl ub s = { s with writes := rest }.mapTx cl (Tx.cut written) := by
  have first : (msgIov lib (s.buf ub) 0).take 1 = [0] := by
    rw [← version]
    rfl
  have long : min 1 (msgIov lib (s.buf ub) 0).length = 1 := by
    rw [msgIov_eq, List.drop_zero, ← size_eq]
    omega
  unfold transmit
  rw [if_pos (by simp [empty])]
  rcases cuts with ⟨rfl, rfl⟩ | ⟨rfl, rfl⟩
  · simp only [State.nextWrite, next, ubusMsgWritev, Option.getD_none]
    refine (if_neg (show ¬ 0 ≥ (s.buf ub).size lib by omega)).trans ?_
    refine (enqueueRest_over _ (Nat.zero_le 1) large most (by rfl) (by simp [State.mapTx, State.mapSock])).trans ?_
    simp [State.mapTx, State.mapSock, Tx.cut]
  · simp only [State.nextWrite, next, ubusMsgWritev, Option.getD_some, Nat.zero_add]
    rw [show msgIov lib (State.buf { s with writes := rest } ub) 0 = msgIov lib (s.buf ub) 0 from rfl, long,
      first]
    refine (if_neg (show ¬ 1 ≥ (s.buf ub).size lib by omega)).trans ?_
    refine (enqueueRest_over _ le_rfl large most (by rfl) (by simp [State.mapTx, State.mapSock])).trans ?_
    simp [State.mapTx, State.mapSock, Tx.cut]

theorem monitorMessage_over (alone : s.net.monitors = [⟨cl, seq⟩]) (funded : s.allocs = [])
    (opened : (s.tx cl).eof = false) (empty : (s.tx cl).txQueue = [])
    (next : s.writes = out :: rest) (cuts : Cuts out written) (send : Bool)
    {record : MonitorRecord} (is : monitorRecord lib (s.reg.client cl) (s.buf ub) send = record)
    (large : ubusClientMaxTxqLen + 1 < (lib.rawMonitor record).length + 8)
    (most : (lib.rawMonitor record).length + 8 < 2 ^ 64) :
    ubusdMonitorMessage lib cl ub send s =
      { s with
        writes := rest
        trace := .submit s.moment cl { type := MsgType.monitor.code, seq := seq + 1 } (.monitor record) ::
          s.trace
        net := { s.net with
          buf := Function.update s.net.buf s.net.brk
            { refcount := .external, hdr := { type := MsgType.monitor.code, seq := seq + 1 }
              data := .monitor record }
          brk := s.net.brk + 1
          monitors := [⟨cl, seq + 1⟩]
          sock := Function.update s.net.sock cl { s.sock cl with tx := (s.tx cl).cut written } } } := by
  unfold ubusdMonitorMessage
  rw [if_neg (by simp [alone]), is]
  simp only [ubusMsgNew, State.calloc, funded]
  simp only [allocBuf, State.mapHdr, State.mapBuf, alone, List.foldl_cons, List.foldl_nil, monitorDeliver,
    monitorStamp, bumpMonitor, monitorSend, logSubmit, State.log, Function.update_self, Function.update_idem,
    List.map_cons, List.map_nil, if_true, State.moment, State.buf]
  rw [if_neg (by simpa using opened)]
  rw [transmit_over (by exact empty) (by exact next) cuts (by simp) (by simpa [MsgBuf.size, Payload.len, Payload.bytes] using large)
    (by simpa [MsgBuf.size, Payload.len, Payload.bytes] using most)]
  simp [ubusMsgFree, msgRelease, closeFd, State.mapTx, State.mapSock, State.mapBuf, funded]

/-- What is known of a client that watches itself, before it gets messages that are too long. -/
structure Looped (lib : Libubox) (cl ub : Nat) (seq : UInt16) (writes : List WriteOutcome) (s : State) :
    Prop where
  alone : s.net.monitors = [⟨cl, seq⟩]
  funded : s.allocs = []
  opened : (s.tx cl).eof = false
  empty : (s.tx cl).txQueue = []
  next : s.writes = writes
  version : (s.buf ub).hdr.version = 0
  old : ub < s.net.brk
  large : ubusClientMaxTxqLen + 1 < (s.buf ub).size lib ∧ (s.buf ub).size lib < 2 ^ 64
  records : ∀ record : MonitorRecord, record.data = lib.blobData ((s.buf ub).data.bytes lib) →
    ubusClientMaxTxqLen + 1 < (lib.rawMonitor record).length + 8 ∧
      (lib.rawMonitor record).length + 8 < 2 ^ 64

theorem send_over (looped : Looped lib cl ub seq [.sent 0, .sent 0] s)
    (plain : (s.buf ub).hdr.type ≠ MsgType.monitor.code) :
    ∃ record, (ubusMsgSend lib cl ub s).trace =
        .submit s.moment cl (s.buf ub).hdr (s.buf ub).data ::
        .submit s.moment cl { type := MsgType.monitor.code, seq := seq + 1 } (.monitor record) :: s.trace ∧
      ((ubusMsgSend lib cl ub s).tx cl).eof = true ∧
      ((ubusMsgSend lib cl ub s).tx cl).wire = (s.tx cl).wire ++ [0, 0] ∧
      (∀ other < s.net.brk, (ubusMsgSend lib cl ub s).buf other = s.buf other) ∧
      ((ubusMsgSend lib cl ub s).sock cl).retmsg = (s.sock cl).retmsg := by
  obtain ⟨large, most⟩ := looped.records (monitorRecord lib (s.reg.client cl) (s.buf ub) true) rfl
  have differs : ub ≠ s.net.brk := looped.old.ne
  unfold ubusMsgSend
  rw [if_neg (by simp [looped.opened]), if_pos plain, monitorMessage_over looped.alone looped.funded
    looped.opened looped.empty looped.next (Or.inr ⟨rfl, rfl⟩) true rfl large most]
  simp only [logSubmit, State.log, State.buf, Function.update_of_ne differs]
  rw [transmit_over (by simp [Tx.cut, looped.empty]) (by rfl) (Or.inr ⟨rfl, rfl⟩)
    (by simp [differs, looped.version]) (by simp [differs, looped.large.1]) (by simpa [differs] using looped.large.2)]
  refine ⟨_, rfl, ?_, ?_, fun other old => ?_, ?_⟩
  · simp [State.mapTx, State.mapSock, Tx.cut]
  · simp [State.mapTx, State.mapSock, Tx.cut]
  · simp [State.mapTx, State.mapSock, old.ne]
  · simp [State.mapTx, State.mapSock]

theorem Looped.congr (looped : Looped lib cl ub seq writes s)
    (monitors : s'.net.monitors = s.net.monitors) (allocs : s'.allocs = s.allocs)
    (tx : s'.tx cl = s.tx cl) (next : s'.writes = s.writes)
    (version : (s'.buf ub).hdr.version = (s.buf ub).hdr.version)
    (data : (s'.buf ub).data = (s.buf ub).data) (brk : s'.net.brk = s.net.brk) :
    Looped lib cl ub seq writes s' where
  alone := monitors.trans looped.alone
  funded := allocs.trans looped.funded
  opened := tx ▸ looped.opened
  empty := tx ▸ looped.empty
  next := next.trans looped.next
  version := version.trans looped.version
  old := brk ▸ looped.old
  large := by
    rw [MsgBuf.size, data]
    exact looped.large
  records := by
    rw [data]
    exact looped.records

theorem Looped.received (looped : Looped lib cl ub seq [.again, .sent 0, .sent 0] s) :
    ∃ record, (ubusdMonitorMessage lib cl ub false s).trace =
        .submit s.moment cl { type := MsgType.monitor.code, seq := seq + 1 } (.monitor record) :: s.trace ∧
      Looped lib cl ub (seq + 1) [.sent 0, .sent 0] (ubusdMonitorMessage lib cl ub false s) ∧
      s.net.brk ≤ (ubusdMonitorMessage lib cl ub false s).net.brk ∧
      ((ubusdMonitorMessage lib cl ub false s).tx cl).wire = (s.tx cl).wire ∧
      (∀ other < s.net.brk, (ubusdMonitorMessage lib cl ub false s).buf other = s.buf other) ∧
      ((ubusdMonitorMessage lib cl ub false s).sock cl).retmsg = (s.sock cl).retmsg := by
  obtain ⟨large, most⟩ := looped.records (monitorRecord lib (s.reg.client cl) (s.buf ub) false) rfl
  have differs : ub ≠ s.net.brk := looped.old.ne
  rw [monitorMessage_over looped.alone looped.funded looped.opened looped.empty looped.next
    (Or.inl ⟨rfl, rfl⟩) false rfl large most]
  refine ⟨_, rfl, ?_, Nat.le_succ _, by simp [Tx.cut], fun other old => by simp [old.ne], by simp⟩
  constructor
  · rfl
  · exact looped.funded
  · simp [Tx.cut, looped.opened]
  · simp [Tx.cut, looped.empty]
  · rfl
  · simp [differs, looped.version]
  · exact looped.old.trans (Nat.lt_succ_self _)
  · simpa [differs] using looped.large
  · simpa [differs] using looped.records

theorem sendStatus_ended (lib : Libubox) (status : Status) (ended : (s.tx cl).eof = true)
    (is : (s.sock cl).retmsg = some retmsg) : ((sendStatus lib cl status s).tx cl) = s.tx cl ∧
      ∃ data, (sendStatus lib cl status s).trace =
        .submit s.moment cl (s.buf retmsg).hdr data :: s.trace := by
  have refused : sendStatus lib cl status s = logSubmit cl retmsg (s.mapBuf retmsg fun buf =>
      { buf with data := .built [.int32 .status status.code] }) := by
    unfold sendStatus ubusMsgSend
    rw [is]
    exact if_pos (by exact ended)
  rw [refused]
  refine ⟨rfl, .built [.int32 .status status.code], ?_⟩
  simp [logSubmit, State.log, State.moment, State.mapBuf]

theorem Looped.answers (looped : Looped lib cl ub seq writes s)
    (ping : (s.buf ub).hdr.type = MsgType.ping.code) (status : (s.sock cl).retmsg = some retmsg)
    (apart : retmsg ≠ ub) {s' : State}
    (is : (dropFd ub (setRetmsg cl ub s)).mapHdr ub (fun hdr => { hdr with type := MsgType.data.code }) = s') :
    ((dropFd ub (setRetmsg cl ub s)).buf ub).hdr.type = MsgType.ping.code ∧
      Looped lib cl ub seq writes s' ∧ s'.sock cl = s.sock cl ∧ s'.trace = s.trace ∧
      s'.net.brk = s.net.brk ∧ (s'.buf ub).hdr = { (s.buf ub).hdr with type := MsgType.data.code } ∧
      (s'.buf retmsg).hdr = { (s.buf retmsg).hdr with
        seq := (s.buf ub).hdr.seq, peer := (s.buf ub).hdr.peer } := by
  have keeps : dropFd ub (setRetmsg cl ub s) = ubusMsgCloseFd ub (s.mapHdr retmsg fun hdr =>
      { hdr with seq := (s.buf ub).hdr.seq, peer := (s.buf ub).hdr.peer }) := by
    unfold setRetmsg
    rw [status]
    refine if_pos ?_
    simp only [State.mapHdr, State.mapBuf, State.buf, Function.update_of_ne apart.symm]
    rw [ping]
    decide
  rw [← is, keeps]
  refine ⟨?_, looped.congr ?_ ?_ ?_ ?_ ?_ ?_ ?_, ?_, ?_, ?_, ?_, ?_⟩ <;>
    unfold ubusMsgCloseFd closeFd <;> split <;>
    simp [State.mapHdr, State.mapBuf, State.close, apart, apart.symm, ping]

/-- **The client pings**: two bytes are written, of two messages. -/
theorem ping_over (retmsg : Nat) (looped : Looped lib cl ub seq [.again, .sent 0, .sent 0] s)
    (ping : (s.buf ub).hdr.type = MsgType.ping.code) (status : (s.sock cl).retmsg = some retmsg)
    (old : retmsg < s.net.brk) (apart : retmsg ≠ ub) :
    ((acceptMessage lib cl ub s).tx cl).wire = (s.tx cl).wire ++ [0, 0] ∧
      ∃ p1 p2 p3 p4, submissions lib (acceptMessage lib cl ub s).trace cl = submissions lib s.trace cl ++
        [msgBytes lib { type := MsgType.monitor.code, seq := seq + 1 } p1,
          msgBytes lib { type := MsgType.monitor.code, seq := seq + 1 + 1 } p2,
          msgBytes lib { (s.buf ub).hdr with type := MsgType.data.code } p3,
          msgBytes lib { (s.buf retmsg).hdr with
            seq := (s.buf ub).hdr.seq, peer := (s.buf ub).hdr.peer } p4] := by
  unfold acceptMessage
  obtain ⟨t, taken⟩ : ∃ t, takeMessage cl ub s = t := ⟨_, rfl⟩
  have looped1 : Looped lib cl ub seq [.again, .sent 0, .sent 0] t := by
    rw [← taken]
    refine looped.congr rfl rfl ?_ rfl ?_ ?_ rfl <;>
      simp [takeMessage, State.log, State.mapRx, State.mapSock, State.mapBuf]
  have hdr1 : ∀ other, (t.buf other).hdr = (s.buf other).hdr := by
    intro other
    rw [← taken]
    by_cases same : other = ub <;>
      simp [takeMessage, State.log, State.mapRx, State.mapSock, State.mapBuf, same]
  have rest1 : (t.tx cl).wire = (s.tx cl).wire ∧ (t.sock cl).retmsg = some retmsg ∧
      t.net.brk = s.net.brk := by
    rw [← taken]
    simp [takeMessage, State.log, State.mapRx, State.mapSock, State.mapBuf, status]
  obtain ⟨wire1, status1, brk1⟩ := rest1
  have calls1 : submissions lib t.trace cl = submissions lib s.trace cl := by
    rw [← taken]
    rfl
  rw [taken]
  obtain ⟨p1, trace2, looped2, brk2, wire2, bufs2, status2⟩ := looped1.received
  generalize ubusdMonitorMessage lib cl ub false t = u at trace2 looped2 brk2 wire2 bufs2 status2 ⊢
  have hdr2 : ∀ other < s.net.brk, (u.buf other).hdr = (s.buf other).hdr := fun other old => by
    rw [bufs2 other (brk1 ▸ old), hdr1]
  obtain ⟨v, answered⟩ : ∃ v, (dropFd ub (setRetmsg cl ub u)).mapHdr ub
    (fun hdr => { hdr with type := MsgType.data.code }) = v := ⟨_, rfl⟩
  have ping2 : (u.buf ub).hdr.type = MsgType.ping.code := by rw [hdr2 ub looped.old, ping]
  obtain ⟨ping3, looped3, sock3, trace3, brk3, hdr3, status3⟩ :=
    looped2.answers ping2 (status2.trans status1) apart answered
  have handled : ubusdProtoReceiveMessage lib cl ub u =
      sendStatus lib cl .ok (ubusMsgFree ub (ubusMsgSend lib cl ub v)) := by
    unfold ubusdProtoReceiveMessage dispatch
    simp only [ping3]
    rw [← answered]
    rfl
  rw [handled]
  have plain : (v.buf ub).hdr.type ≠ MsgType.monitor.code := by
    rw [hdr3]
    exact show MsgType.data.code ≠ MsgType.monitor.code by decide
  obtain ⟨p2, trace4, ended4, wire4, bufs4, status4⟩ := send_over looped3 plain
  generalize ubusMsgSend lib cl ub v = w at trace4 ended4 wire4 bufs4 status4 ⊢
  have freed : Wire (fun _ => False) (fun _ => True) (fun _ => False) w (ubusMsgFree ub w) :=
    wire_free ub w
  have still : Still lib Nothing w (ubusMsgFree ub w) := still_free ub w
  have status5 : ((ubusMsgFree ub w).sock cl).retmsg = some retmsg := by
    rw [State.sock, freed.retmsg, ← State.sock, status4, sock3, status2, status1]
  have ended5 : ((ubusMsgFree ub w).tx cl).eof = true := by
    rw [State.tx, still.tx]
    exact ended4
  have last : ((ubusMsgFree ub w).buf retmsg).hdr = { (s.buf retmsg).hdr with
      seq := (s.buf ub).hdr.seq, peer := (s.buf ub).hdr.peer } := by
    have below : retmsg < v.net.brk := by
      rw [brk3]
      exact old.trans_le (brk1 ▸ brk2)
    rw [State.buf, freed.hdr retmsg trivial, ← State.buf, bufs4 retmsg below, status3, hdr2 ub looped.old,
      hdr2 retmsg old]
  have calls4 : submissions lib (ubusMsgFree ub w).trace cl = submissions lib w.trace cl :=
    congrFun still.calls cl
  obtain ⟨tx, p4, trace5⟩ := sendStatus_ended lib Status.ok ended5 status5
  refine ⟨?_, .monitor p1, .monitor p2, (v.buf ub).data, p4, ?_⟩
  · rw [tx, State.tx, still.tx, ← State.tx, wire4, State.tx, ← State.sock, sock3]
    rw [State.sock, ← State.tx, wire2, wire1]
  rw [trace5, submitted_log, Function.update_self, calls4, last, trace4, submitted_log, Function.update_self,
    submitted_log, Function.update_self, trace3, trace2, submitted_log, Function.update_self, calls1, hdr3,
    hdr2 ub looped.old]
  simp

theorem whole_subset {whole : List Bytes} {part : Bytes} {next : Bytes → Prop}
    (ends : part = [] ∧ whole.Sublist calls ∨ ∃ msg, (whole ++ [msg]).Sublist calls ∧ next msg) :
    whole ⊆ calls := by
  rcases ends with ⟨-, among⟩ | ⟨msg, among, -⟩
  · exact among.subset
  · exact fun other member => among.subset (List.mem_append_left _ member)

theorem frames_cons {msg : Bytes} (frames : Frames (msg :: calls) (msg ++ tail) next)
    (filled : tail ≠ []) (long : 4 ≤ msg.length)
    (apart : ∀ other ∈ calls, other.take 4 ≠ msg.take 4)
    (fits : ∀ other ∈ calls, 4 ≤ other.length) : Frames calls tail next := by
  have is : ∀ other rest, other ∈ msg :: calls → msg ++ tail <+: other ++ rest → other = msg := by
    rintro other rest member ⟨more, begins⟩
    rcases List.mem_cons.mp member with same | later
    · exact same
    have heads := congrArg (List.take 4) begins
    rw [List.append_assoc, List.take_append_of_le_length long,
      List.take_append_of_le_length (fits other later)] at heads
    exact absurd heads.symm (apart other later)
  obtain ⟨whole, part, wire, ends⟩ := frames
  cases whole with
  | nil =>
    rw [List.flatten_nil, List.nil_append] at wire
    subst wire
    rcases ends with ⟨none, -⟩ | ⟨other, among, begins, proper, -⟩
    · exact absurd (List.append_eq_nil_iff.mp none).2 filled
    · have same := is other [] (List.singleton_sublist.mp among) (by rwa [List.append_nil])
      rw [same] at begins
      exact absurd (List.append_right_eq_self.mp (begins.eq_of_length_le (by simp))) filled
  | cons first whole =>
    rw [List.flatten_cons, List.append_assoc] at wire
    have member : first ∈ msg :: calls := whole_subset ends List.mem_cons_self
    have same := is first (whole.flatten ++ part) member ⟨[], by rw [List.append_nil, wire]⟩
    subst same
    refine ⟨whole, part, List.append_cancel_left wire, ends.imp (And.imp_right ?_) ?_⟩
    · exact List.cons_sublist_cons.mp
    · rintro ⟨other, among, rest⟩
      exact ⟨other, List.cons_sublist_cons.mp among, rest⟩

theorem frames_flatten (frames : Frames (msgs ++ calls) (msgs.flatten ++ tail) next)
    (filled : tail ≠ []) (long : ∀ msg ∈ msgs ++ calls, 4 ≤ msg.length)
    (apart : ((msgs ++ calls).map (List.take 4)).Nodup) : Frames calls tail next := by
  induction msgs with
  | nil => exact frames
  | cons msg msgs ih =>
    rw [List.cons_append, List.map_cons, List.nodup_cons] at apart
    rw [List.flatten_cons, List.append_assoc, List.cons_append] at frames
    refine ih (frames_cons frames (fun none => filled (List.append_eq_nil_iff.mp none).2)
      (long msg List.mem_cons_self) (fun other member same => ?_) fun other member => ?_)
      (fun other member => long other (List.mem_cons_of_mem _ member)) apart.2
    · exact apart.1 (same ▸ List.mem_map_of_mem member)
    · exact long other (List.mem_cons_of_mem _ member)

theorem not_frames (apart : ∀ msg ∈ calls, ¬ wire <+: msg ∧ wire.length < msg.length)
    (filled : wire ≠ []) : ¬ Frames calls wire next := by
  rintro ⟨whole, part, rfl, ends⟩
  cases whole with
  | nil =>
    rw [List.flatten_nil, List.nil_append] at apart filled
    rcases ends with ⟨none, -⟩ | ⟨msg, among, begins, -⟩
    · exact filled none
    · exact (apart msg (List.singleton_sublist.mp among)).1 begins
  | cons first whole =>
    have short := (apart first (whole_subset ends List.mem_cons_self)).2
    simp only [List.flatten_cons, List.length_append] at short
    omega

theorem take_msgBytes (hdr : Msghdr) (data : Payload) :
    (msgBytes lib hdr data).take 4 = hdr.version :: hdr.type :: be16 hdr.seq :=
  rfl

theorem not_frames_spliced
    (heads : msgs.map (List.take 4) = [[0, 0, 0, 0], [0, 11, 0, 1], [0, 1, 0, 1]])
    (heads' : calls.map (List.take 4) = [[0, 11, 0, 2], [0, 11, 0, 3], [0, 2, 0, 2], [0, 1, 0, 2]]) :
    ¬ Frames (msgs ++ calls) (msgs.flatten ++ [0, 0]) next := by
  intro frames
  have keys : (msgs ++ calls).map (List.take 4) = [[0, 0, 0, 0], [0, 11, 0, 1], [0, 1, 0, 1],
      [0, 11, 0, 2], [0, 11, 0, 3], [0, 2, 0, 2], [0, 1, 0, 2]] := by
    rw [List.map_append, heads, heads']
    rfl
  have long : ∀ msg ∈ msgs ++ calls, 4 ≤ msg.length := by
    intro msg member
    have key : msg.take 4 ∈ (msgs ++ calls).map (List.take 4) := List.mem_map_of_mem member
    rw [keys] at key
    have length : (msg.take 4).length = 4 := by
      revert key
      generalize msg.take 4 = key
      revert key
      decide
    rw [List.length_take] at length
    omega
  refine not_frames (fun msg member => ⟨fun begins => ?_, ?_⟩) (by decide)
    (frames_flatten frames (by decide) long (by rw [keys]; decide))
  · obtain ⟨rest, rfl⟩ := begins
    have key := List.mem_map_of_mem (f := List.take 4) member
    rw [heads'] at key
    simp at key
  · exact (long msg (List.mem_append_right _ member)).trans_lt' (by decide)

/-- A root client makes itself a monitor. -/
def monitorRun : List Input :=
  [connects rootCred 5000, receives 3 (Blob.message .invoke 1 3
    [.int32 .objid ubusSystemObjectMonitor, .string .method (cstr "add")]) false]

/-- The header of a ping of the greatest length. -/
def longPing : Bytes := [0, 3, 0, 2, 0, 0, 0, 0, 0, 16, 0, 0]

theorem length_be32 (value : UInt32) : (be32 value).length = 4 := rfl

theorem length_attr (ext : Bool) (id : Nat) (payload : Bytes) :
    (Blob.attr ext id payload).length = 4 + Blob.padded payload.length := by
  have least : payload.length ≤ Blob.padded payload.length := by
    unfold Blob.padded
    omega
  simp only [Blob.attr, Blob.pad, List.length_append, length_be32, List.length_replicate]
  omega

theorem looped_arrived {body : Bytes} (len : body.length = 1048572)
    (alone : s.net.monitors = [⟨cl, seq⟩]) (tx : (s.tx cl).eof = false ∧ (s.tx cl).txQueue = []) :
    Looped Blob.libubox cl s.net.brk seq writes (arrived cl longPing body writes [] s) := by
  have data : Blob.libubox.blobData (longPing.drop 8 ++ body) = body := by
    have raw : Blob.rawLen (longPing.drop 8 ++ body) = body.length + 4 := by
      show Blob.be [0, 16, 0, 0] % 2 ^ 24 = body.length + 4
      rw [len]
      decide
    show ((longPing.drop 8 ++ body).take (Blob.rawLen (longPing.drop 8 ++ body))).drop 4 = body
    rw [raw, List.take_of_length_le (by simp [longPing])]
    rfl
  have size : (longPing.drop 8 ++ body).length = 1048576 := by
    rw [List.length_append, len]
    decide
  refine ⟨alone, rfl, ?_, ?_, rfl, ?_, Nat.lt_succ_self _, ?_, fun record is => ?_⟩
  · simp [arrived, tx.1]
  · simp [arrived, tx.2]
  · simp [arrived]
    rfl
  · simp [arrived, MsgBuf.size, Payload.len, Payload.bytes, size, ubusClientMaxTxqLen, ubusMaxMsglen]
  simp only [arrived, Function.update_self, Payload.bytes, State.buf, data] at is
  have length : (Blob.libubox.rawMonitor record).length = 1048620 := by
    show (Blob.rawMonitor record).length = 1048620
    simp only [Blob.rawMonitor, length_attr, List.length_append, is, len, length_be32, List.length_singleton]
    decide
  rw [length]
  decide

end Framing

end Ubus
