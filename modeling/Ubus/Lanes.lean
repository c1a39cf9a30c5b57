/-
**The pipe to a client over whole runs.**

* `Lane` — the pipe to a client, and the messages submitted to it; `Tug` — one step of it.
* `Watched` — the client has asked to be a monitor.
* `Move.lanes`: a move takes the lane of every client by such steps.
-/

import Ubus.Shipment

namespace Ubus

open Lib Relation

variable {p : Pipe UInt8} {t : State}

/-- The pipe to a client, and the messages submitted to it. -/
@[ext] structure Lane where
  pipe : Pipe UInt8
  calls : List Bytes

def Traffic.lane (t : Traffic) (cl : Nat) : Lane := ⟨t.pipe cl, t.calls cl⟩

def State.lane (lib : Libubox) (s : State) (cl : Nat) : Lane := (s.traffic lib).lane cl

/-- **One step of a lane**: a message is refused or sent, the queue is drained, the client hangs up, or
write events are turned off, which `hush` allows. -/
inductive Tug (watched fund : Prop) (hush : Pipe UInt8 → Prop) (l : Lane) : Lane → Prop where
  | refused (msg : Bytes) (ended : l.pipe.ended = true) :
      Tug watched fund hush l ⟨l.pipe, l.calls ++ [msg]⟩
  | sent (msg : Bytes) (count : Nat) (room : Bool) (opened : l.pipe.ended = true → watched)
      (filled : msg ≠ []) (most : count ≤ msg.length)
      (granted : fund → l.pipe.Fits ubusClientMaxTxqLen count msg → room = true)
      (kept : room = true → (l.pipe.queue = [] → count < msg.length) → Admits l.pipe count msg) :
      Tug watched fund hush l ⟨l.pipe.transmit count room msg, l.calls ++ [msg]⟩
  | drained (count : Nat) (bound : ∀ msg ∈ l.pipe.queue.head?, count ≤ msg.length - l.pipe.ofs) :
      Tug watched fund hush l ⟨l.pipe.drain count, l.calls⟩
  | hung (hup : Bool) : Tug watched fund hush l ⟨{ l.pipe with ended := l.pipe.ended || hup }, l.calls⟩
  | quieted (idle : hush l.pipe) : Tug watched fund hush l ⟨{ l.pipe with armed := false }, l.calls⟩

/-- A row of steps. -/
abbrev Tugs (watched fund : Prop) (hush : Pipe UInt8 → Prop) : Lane → Lane → Prop :=
  ReflTransGen (Tug watched fund hush)

/-- The message calls `add` on the monitor object. -/
def AsksMonitor (lib : Libubox) (attr : Attrs) : Prop :=
  ∃ method objid, attr .method = some method ∧ attr .objid = some objid ∧
    lib.blobGetU32 objid = ubusSystemObjectMonitor ∧ lib.blobString method = cstr "add"

/-- **The client has asked to be a monitor.** -/
def Watched (lib : Libubox) (trace : List Event) (cl : Nat) : Prop :=
  ∃ moment ub hdr data fd, .accept moment cl ub hdr data fd ∈ trace ∧
    hdr.type = MsgType.invoke.code ∧ AsksMonitor lib (ubusParseMsg lib data)

/-- **Queued messages are safe**, and so are those that are received or wait. -/
structure Afloat (lib : Libubox) (fund : Prop) (s : State) : Prop where
  tidy : Tidy (Watched lib s.trace) fund s
  mail : ∀ cl ∈ s.net.socks, ∀ ub ∈ (s.net.sock cl).mail, ¬ s.net.Queued ub

/-- Write events of a client that is there are turned off only when nothing is left to be done. -/
def Hush (s : State) (cl : Nat) (p : Pipe UInt8) : Prop :=
  cl ∈ s.net.socks → p.queue = [] ∧ (s.sock cl).cmdQueue = []

/-- The lane of a client was taken from its place, or from the start for a new client. -/
structure Hauled (lib : Libubox) (fund : Prop) (s s' : State) (cl : Nat) (l : Lane) : Prop where
  start : cl ∈ s.net.socks ∧ l = s.lane lib cl ∨ cl ∉ s.net.socks ∧ l = ⟨{}, (s.lane lib cl).calls⟩
  tugs : Tugs (Watched lib s'.trace cl) fund (Hush s cl) l (s'.lane lib cl)

section Lanes

variable {lib : Libubox} {mon may : Nat → Prop} {fund : Prop} {cl ub : Nat} {s s' : State}
  {hush : Pipe UInt8 → Prop}

theorem Tug.mono {watched : Prop} {hush' : Pipe UInt8 → Prop} {l l' : Lane} (tug : Tug watched fund hush l l')
    (more : ∀ p, hush p → hush' p) : Tug watched fund hush' l l' := by
  cases tug with
  | refused msg ended => exact .refused msg ended
  | sent msg count room opened filled most granted kept =>
    exact .sent msg count room opened filled most granted kept
  | drained count bound => exact .drained count bound
  | hung hup => exact .hung hup
  | quieted idle => exact .quieted (more _ idle)

theorem Hop.tugs {t t' : Traffic} (hop : Hop mon fund t t') (cl : Nat) :
    Tugs (mon cl) fund hush (t.lane cl) (t'.lane cl) := by
  have apart : ∀ {dest msg p}, cl ≠ dest → (t.call dest msg p).lane cl = t.lane cl := by
    intro dest msg p differs
    simp only [Traffic.lane, Traffic.call, Function.update_of_ne differs]
  have here : ∀ {msg p}, (t.call cl msg p).lane cl = ⟨p, t.calls cl ++ [msg]⟩ := by
    intro msg p
    simp only [Traffic.lane, Traffic.call, Function.update_self]
  cases hop with
  | refused dest msg ended =>
    by_cases same : cl = dest
    · subst same
      rw [here]
      exact .single (.refused msg ended)
    · rw [apart same]
  | sent dest msg count room opened filled most granted kept =>
    by_cases same : cl = dest
    · subst same
      rw [here]
      exact .single (.sent msg count room opened filled most granted kept)
    · rw [apart same]

theorem Shipped.tugs (shipped : Shipped lib mon fund may s s') (cl : Nat) :
    Tugs (mon cl) fund hush (s.lane lib cl) (s'.lane lib cl) := by
  have path := shipped.path
  unfold State.lane
  generalize s.traffic lib = t at path ⊢
  generalize s'.traffic lib = t' at path ⊢
  induction path with
  | refl => exact .refl
  | tail _ hop ih => exact ih.trans (hop.tugs cl)

theorem AddsMonitor.asks {reg : Registry} {attr : Attrs} (adds : AddsMonitor lib reg attr)
    (good : reg.Ok) : AsksMonitor lib attr := by
  obtain ⟨method, objid, obj, hasMethod, hasObjid, found, unowned, recv, add⟩ := adds
  refine ⟨method, objid, hasMethod, hasObjid, ?_, add⟩
  have id : (reg.object obj).id = lib.blobGetU32 objid := (good.objects.find_iff.mp found).2
  rcases good.owners.unowned obj (has_of_found found) unowned with ⟨other, is, same⟩ | wip
  · rw [recv] at is
    cases is
    exact id.symm.trans same
  · cases wip

theorem Watched.mono {trace trace' : List Event} (watched : Watched lib trace cl)
    (more : trace ⊆ trace') : Watched lib trace' cl := by
  obtain ⟨moment, ub, hdr, data, fd, member, rest⟩ := watched
  exact ⟨moment, ub, hdr, data, fd, more member, rest⟩

theorem Tidy.mono {mon' : Nat → Prop} (tidy : Tidy mon fund s) (more : ∀ cl, mon cl → mon' cl) :
    Tidy mon' fund s :=
  ⟨tidy.below, tidy.plain, tidy.status, fun m member => more m.cl (tidy.watch m member), tidy.funded⟩

/-! ### One `sendmsg` -/

/-- Bytes of the first message are written. -/
def Tx.wrote (bytes : Bytes) (count : Nat) (tx : Tx) : Tx :=
  { tx with
    wire := tx.wire ++ (bytes.drop tx.txqOfs).take count
    txqOfs := tx.txqOfs + count, txqLen := tx.txqLen - count }

/-- The first message leaves the queue. -/
def Tx.shift (tx : Tx) : Tx := { tx with txqOfs := 0, txQueue := tx.txQueue.tail }

theorem txWrite_sent (lib : Libubox) (cl ub extra : Nat) (s : State) :
    ∃ count ≤ ((s.net.buf ub).bytes lib).length - (s.tx cl).txqOfs,
      txWrite lib cl ub (.sent extra) s =
        if (s.tx cl).txqOfs + count < ((s.net.buf ub).bytes lib).length then
          s.mapTx cl (Tx.wrote ((s.net.buf ub).bytes lib) count)
        else ubusMsgFree ub (s.mapTx cl fun tx => (tx.wrote ((s.net.buf ub).bytes lib) count).shift) := by
  refine ⟨min (extra + 1) (((s.net.buf ub).bytes lib).length - (s.tx cl).txqOfs), Nat.min_le_right .., ?_⟩
  simp only [txWrite, ubusMsgWritev, msgIov_eq, txAdvance, List.length_drop, State.buf, State.tx]
  generalize min (extra + 1) (((s.net.buf ub).bytes lib).length - (s.net.sock cl).tx.txqOfs) = count
  simp [ubusMsgListFree, State.mapTx, State.mapSock, Tx.wrote, Tx.shift, size_eq]

/-- What one `sendmsg` of the first loop of `client_cb` changes: the queue may be one shorter. -/
structure Wrote (lib : Libubox) (cl : Nat) (p : Pipe UInt8) (s s' : State) : Prop extends
    Around lib s s' where
  pipe : s'.pipe lib = Function.update (s.pipe lib) cl p
  queued : ∀ ub, s'.net.Queued ub → s.net.Queued ub

theorem wrote_mapTx (f : Tx → Tx) (pipe : (f (s.tx cl)).pipe lib s.net.buf = p)
    (queue : ∀ ub ∈ (f (s.net.sock cl).tx).txQueue, ub ∈ (s.net.sock cl).tx.txQueue) :
    Wrote lib cl p s (s.mapTx cl f) :=
  ⟨Around.mapTx cl f s, pipe ▸ pipe_mapTx s cl f, fun ub is =>
    (queued_mapTx ub is).elim id fun member => ⟨cl, queue ub member⟩⟩

/-- **One `sendmsg` drains the queue.** -/
theorem wrote_txWrite (below : ∀ ub, s.net.Queued ub → ub < s.net.brk)
    (first : (s.tx cl).txQueue.head? = some ub) (out : WriteOutcome) :
    Wrote lib cl (s.pipe lib cl) s (txWrite lib cl ub out s) ∨ ∃ count,
      (∀ msg ∈ (s.pipe lib cl).queue.head?, count ≤ msg.length - (s.pipe lib cl).ofs) ∧
        Wrote lib cl ((s.pipe lib cl).drain count) s (txWrite lib cl ub out s) := by
  have nothing : Wrote lib cl (s.pipe lib cl) s s :=
    ⟨Around.of_eq (fun _ => rfl) rfl rfl rfl rfl rfl, (Function.update_eq_self ..).symm, fun _ => id⟩
  obtain ⟨rest, queue⟩ : ∃ rest, (s.net.sock cl).tx.txQueue = ub :: rest :=
    ⟨_, List.eq_cons_of_mem_head? first⟩
  have bytes : (s.pipe lib cl).queue =
      (s.net.buf ub).bytes lib :: rest.map fun ub => (s.net.buf ub).bytes lib := by
    simp only [State.pipe, Tx.pipe, State.tx, queue, List.map_cons]
  cases out with
  | again => exact Or.inl nothing
  | error => exact Or.inl nothing
  | sent extra =>
    obtain ⟨count, most, result⟩ := txWrite_sent lib cl ub extra s
    refine Or.inr ⟨count, fun msg member => ?_, ?_⟩
    · rw [bytes] at member
      cases member
      exact most
    · rw [result, Pipe.drain, bytes]
      simp only
      split
      · rename_i more
        rw [if_pos (show (s.tx cl).txqOfs + count < _ from more)]
        refine wrote_mapTx _ ?_ fun _ => id
        simp [Tx.pipe, Tx.wrote, State.pipe, queue]
      · rename_i done
        rw [if_neg (show ¬ (s.tx cl).txqOfs + count < _ from done)]
        generalize shifted : (s.mapTx cl fun tx => (tx.wrote ((s.net.buf ub).bytes lib) count).shift) = t
        have short : Wrote lib cl
            (((s.tx cl).wrote ((s.net.buf ub).bytes lib) count).shift.pipe lib s.net.buf) s t := by
          rw [← shifted]
          exact wrote_mapTx _ rfl fun _ => List.mem_of_mem_tail
        have freed : Still lib Nothing t (ubusMsgFree ub t) := still_free ub t
        refine ⟨short.toAround.trans freed.toAround, ?_, fun other is =>
          short.queued other ((freed.queued other).mp is)⟩
        have below' : ∀ other, t.net.Queued other → other < t.net.brk := fun other is =>
          (below other (short.queued other is)).trans_le short.brk
        rw [funext (freed.pipe below' fun _ _ => id), short.pipe]
        simp [Tx.pipe, Tx.shift, Tx.wrote, State.pipe, queue]

/-! ### Moves -/

theorem Wrote.tidy (wrote : Wrote lib cl p s s') (tidy : Tidy mon fund s) : Tidy mon fund s' :=
  tidy.of_queued wrote.toAround (fun ub is => (tidy.below ub (wrote.queued ub is)).trans_le wrote.brk)
    fun ub is => Or.inl (wrote.queued ub is)

theorem Wrote.tugs {hush : Nat → Pipe UInt8 → Prop} (wrote : Wrote lib cl p s s')
    (here : Tugs (mon cl) fund (hush cl) (s.lane lib cl) ⟨p, (s.lane lib cl).calls⟩) (other : Nat) :
    Tugs (mon other) fund (hush other) (s.lane lib other) (s'.lane lib other) := by
  have lane : s'.lane lib other = ⟨s'.pipe lib other, (s.lane lib other).calls⟩ :=
    Lane.ext rfl (congrFun wrote.calls other)
  rw [lane, wrote.pipe]
  by_cases same : other = cl
  · subst same
    rw [Function.update_self]
    exact here
  · rw [Function.update_of_ne same]
    exact .refl

theorem Afloat.mail_of {socks : List Nat} (afloat : Afloat lib fund s) (inv : Inv lib [] s)
    (mail : ∀ cl ∈ socks, ∀ ub ∈ (s'.net.sock cl).mail, cl ∈ s.net.socks ∧ ub ∈ (s.net.sock cl).mail)
    (queued : ∀ ub, s'.net.Queued ub → s.net.Queued ub ∨ s.net.brk ≤ ub) :
    ∀ cl ∈ socks, ∀ ub ∈ (s'.net.sock cl).mail, ¬ s'.net.Queued ub := by
  intro cl known ub member is
  obtain ⟨known', member'⟩ := mail cl known ub member
  rcases queued ub is with is | fresh
  · exact afloat.mail cl known' ub member' is
  · exact absurd (inv.kept_below ub (kept_of_mail known' member')) (not_lt.mpr fresh)

theorem lanes_of_ships (afloat : Afloat lib fund s) (inv : Inv lib [] s) (trace : s.trace ⊆ s'.trace)
    (ships : Ships lib (Watched lib s'.trace) fund Nothing s s')
    (mail : ∀ cl ∈ s'.net.socks, cl ∈ s.net.socks ∧ (s'.net.sock cl).mail ⊆ (s.net.sock cl).mail) :
    Afloat lib fund s' ∧ ∀ cl ∈ s'.net.socks, ∃ l, Hauled lib fund s s' cl l := by
  have shipped := ships (afloat.tidy.mono fun _ watched => watched.mono trace)
  refine ⟨⟨shipped.tidy, afloat.mail_of inv (fun cl known ub member => ⟨(mail cl known).1,
    (mail cl known).2 member⟩) fun ub is => (shipped.queued ub is).imp_right fun rest =>
      rest.elim id False.elim⟩, fun cl known => ?_⟩
  exact ⟨s.lane lib cl, Or.inl ⟨(mail cl known).1, rfl⟩, shipped.tugs cl⟩

theorem lanes_of_wrote (afloat : Afloat lib fund s) (inv : Inv lib [] s)
    (trace : s'.trace = s.trace) (rests : ∀ cl, Rests cl s s') (wrote : Wrote lib cl p s s')
    (here : Tugs (Watched lib s.trace cl) fund (Hush s cl) (s.lane lib cl) ⟨p, (s.lane lib cl).calls⟩) :
    Afloat lib fund s' ∧ ∀ cl ∈ s'.net.socks, ∃ l, Hauled lib fund s s' cl l := by
  refine ⟨⟨trace ▸ wrote.tidy afloat.tidy, afloat.mail_of inv (fun cl known ub member =>
    ⟨(rests cl).known.mp known, (rests cl).mail_eq ▸ member⟩) fun ub is => Or.inl (wrote.queued ub is)⟩,
    fun other known => ?_⟩
  refine ⟨s.lane lib other, Or.inl ⟨(rests other).known.mp known, rfl⟩, ?_⟩
  rw [trace]
  exact wrote.tugs here other

theorem lanes_accept (afloat : Afloat lib fund s) (inv : Inv lib [] s) (known : s.reg.HasClient cl)
    (pending : (s.net.sock cl).rx.pendingMsg = some ub) :
    Afloat lib fund (acceptMessage lib cl ub s) ∧ ∀ other ∈ (acceptMessage lib cl ub s).net.socks,
      ∃ l, Hauled lib fund s (acceptMessage lib cl ub s) other l := by
  have socket := (inv.clients cl).mp known
  have mine : ub ∈ (s.net.sock cl).mail := by simp [Sock.mail, pending]
  have free := afloat.mail cl socket ub mine
  have old := inv.kept_below ub (kept_of_mail socket mine)
  have accepts := accepts_acceptMessage inv known pending
  obtain ⟨new, moment, fd, trace, -⟩ := accepts.trace
  have more : s.trace ⊆ (acceptMessage lib cl ub s).trace := by
    rw [trace]
    exact fun _ member => List.mem_append_right _ (List.mem_cons_of_mem _ member)
  have watching : (s.net.buf ub).hdr.type = MsgType.invoke.code →
      AddsMonitor lib s.reg (ubusParseMsg lib (s.net.buf ub).data) →
        Watched lib (acceptMessage lib cl ub s).trace cl := fun type adds =>
    ⟨moment, ub, _, _, fd, by rw [trace]; simp, type, adds.asks inv.good⟩
  have ships : Ships lib (Watched lib (acceptMessage lib cl ub s).trace) fund (fun other => other = ub ∧
      (s.net.buf ub).hdr.type ≠ MsgType.lookup.code) s (acceptMessage lib cl ub s) :=
    ships_acceptMessage inv known pending free old watching
  have shipped := ships (afloat.tidy.mono fun _ watched => watched.mono more)
  obtain ⟨others, own⟩ := inv.posts.pending_only socket pending
  refine ⟨⟨shipped.tidy, fun other known' msg member is => ?_⟩, fun other known' =>
    ⟨s.lane lib other, Or.inl ⟨accepts.socks ▸ known', rfl⟩, shipped.tugs other⟩⟩
  rw [accepts.socks] at known'
  -- Old mail is neither new nor the accepted message, and a lookup is not sent on.
  have safe : ∀ other ∈ s.net.socks, ∀ msg ∈ (s.net.sock other).mail, msg ≠ ub →
      ¬ (acceptMessage lib cl ub s).net.Queued msg := by
    intro other known' msg member differs is
    rcases shipped.queued msg is with is | fresh | allowed
    · exact afloat.mail other known' msg member is
    · exact absurd (inv.kept_below msg (kept_of_mail known' member)) (not_lt.mpr fresh)
    · exact differs allowed.1
  by_cases same : other = cl
  · subst same
    have waiting : ∀ cmd ∈ (s.net.sock other).cmdQueue,
        ¬ (acceptMessage lib other ub s).net.Queued cmd.msg := fun cmd member' =>
      safe other known' cmd.msg (List.mem_append_left _ (List.mem_map_of_mem member')) (own cmd member')
    simp only [Sock.mail, accepts.rx, Option.toList_none, List.append_nil, List.mem_map] at member
    obtain ⟨cmd, member, rfl⟩ := member
    rcases accepts.queue with queue | ⟨path, queue, lookup, -, -⟩
    · exact waiting cmd (queue ▸ member) is
    rw [queue] at member
    rcases List.mem_append.mp member with member | member
    · exact waiting cmd member is
    cases List.mem_singleton.mp member
    rcases shipped.queued ub is with is | fresh | allowed
    · exact free is
    · exact absurd old (not_lt.mpr fresh)
    · exact allowed.2 lookup
  · have rests := accepts.rests other same
    rw [rests.mail_eq] at member
    exact safe other known' msg member (fun is => others other known' same (is ▸ member)) is

theorem Still.wrote (still : Still lib Nothing s t) (tidy : Tidy mon fund s)
    (wrote : Wrote lib cl p t s') : Wrote lib cl p s s' := by
  refine ⟨still.toAround.trans wrote.toAround, ?_, fun ub is => (still.queued ub).mp (wrote.queued ub is)⟩
  rw [wrote.pipe, funext (still.pipe tidy.below fun _ _ => id)]

theorem Still.lane {touched : Nat → Prop} (still : Still lib touched s t) (tidy : Tidy mon fund s)
    (free : ∀ ub, s.net.Queued ub → ¬ touched ub) (cl : Nat) : t.lane lib cl = s.lane lib cl :=
  Lane.ext (still.pipe tidy.below free cl) (congrFun still.calls cl)

theorem recvHeader_fresh (none : (s.rx cl).pendingMsg = none) (out : ReadOutcome) :
    ∀ ub, ((recvHeader cl out s).2.net.sock cl).rx.pendingMsg = some ub → s.net.brk ≤ ub := by
  have done : ∀ t, s.net.brk ≤ t.net.brk → (t.net.sock cl).rx.pendingMsg = Option.none →
      ∀ ub, ((headerDone cl t).2.net.sock cl).rx.pendingMsg = some ub → s.net.brk ≤ ub := by
    intro t brk none ub
    unfold headerDone
    simp only
    split
    · rw [none]
      exact fun same => by cases same
    split
    · rw [none]
      exact fun same => by cases same
    have sock := ubusMsgNew_sock (.received ((t.rx cl).hdrbuf.drop 8)) false t
    rcases result : ubusMsgNew (.received ((t.rx cl).hdrbuf.drop 8)) false t with ⟨_ | new, u⟩
    · rw [result] at sock
      have same : u.net.sock = t.net.sock := sock
      rw [same, none]
      exact fun same => by cases same
    · simp only [State.mapRx, mapSock_self, Option.some.injEq]
      rintro rfl
      rw [(ubusMsgNew_some result).1]
      exact brk
  unfold recvHeader
  cases out with
  | again =>
    rw [none]
    exact fun _ same => by cases same
  | got extra fd =>
    simp only
    generalize min (extra + 1) (12 - (s.rx cl).pendingMsgOffset) = count
    have read : s.net.brk ≤ (recvFd cl fd (takeBytes cl count s).2).net.brk ∧
        ((recvFd cl fd (takeBytes cl count s).2).net.sock cl).rx.pendingMsg = Option.none := by
      unfold recvFd takeBytes
      split <;> simpa [State.mapRx, State.mapSock] using none
    generalize recvFd cl fd (takeBytes cl count s).2 = t at read ⊢
    split
    · simp only [State.mapRx, mapSock_self, read.2]
      exact fun _ same => by cases same
    · exact done _ read.1 (by simp only [State.mapRx, mapSock_self, read.2])

theorem lanes_header (afloat : Afloat lib fund s) (inv : Inv lib [] s) (known : s.reg.HasClient cl)
    (none : (s.rx cl).pendingMsg = none) (out : ReadOutcome) :
    Afloat lib fund (recvHeader cl out s).2 ∧ ∀ other ∈ (recvHeader cl out s).2.net.socks,
      ∃ l, Hauled lib fund s (recvHeader cl out s).2 other l := by
  have still : Still lib Nothing s (recvHeader cl out s).2 := still_recvHeader cl out s
  have reads := reads_recvHeader inv (inv.sockets _ known) out
  have fresh := recvHeader_fresh none out
  generalize (recvHeader cl out s).2 = s' at still reads fresh ⊢
  have shipped : Shipped lib (Watched lib s'.trace) fund Nothing s s' := by
    rw [reads.trace]
    exact still.quietly afloat.tidy
  refine ⟨⟨shipped.tidy, fun other known' ub member is => ?_⟩, fun other known' =>
    ⟨s.lane lib other, Or.inl ⟨reads.socks ▸ known', rfl⟩, shipped.tugs other⟩⟩
  · rw [reads.socks] at known'
    have is := (still.queued ub).mp is
    by_cases same : other = cl
    · subst same
      rcases List.mem_append.mp member with member | member
      · rw [reads.cmdQueue] at member
        exact afloat.mail other known' ub (List.mem_append_left _ member) is
      · exact absurd (afloat.tidy.below ub is) (not_lt.mpr (fresh ub (Option.mem_toList.mp member)))
    · rw [(reads.rests other same).mail_eq] at member
      exact afloat.mail other known' ub member is

theorem lanes_body (afloat : Afloat lib fund s) (inv : Inv lib [] s) (known : s.reg.HasClient cl)
    (pending : (s.rx cl).pendingMsg = some ub) (out : ReadOutcome) :
    Afloat lib fund (recvBody lib cl ub out s).2 ∧ ∀ other ∈ (recvBody lib cl ub out s).2.net.socks,
      ∃ l, Hauled lib fund s (recvBody lib cl ub out s).2 other l := by
  have socket := (inv.clients cl).mp known
  have mine : ub ∈ (s.net.sock cl).mail := by
    simp [Sock.mail, show (s.net.sock cl).rx.pendingMsg = _ from pending]
  have free : ∀ other, s.net.Queued other → ¬ other = ub := fun other is same =>
    afloat.mail cl socket ub mine (same ▸ is)
  -- Reading the bytes changes only a buffer that is not queued.
  have got : ∀ {t : State}, Still lib (· = ub) s t → t.trace = s.trace → t.net.socks = s.net.socks →
      (∀ other, (t.net.sock other).mail = (s.net.sock other).mail) → Afloat lib fund t := by
    intro t still trace socks mail
    have tidy : Tidy (Watched lib s.trace) fund t :=
      (still.ships (fun _ => free) afloat.tidy : Shipped lib _ fund Nothing s t).tidy
    refine ⟨trace ▸ tidy, fun other known' msg member is => ?_⟩
    exact afloat.mail other (socks ▸ known') msg (mail other ▸ member) ((still.queued msg).mp is)
  have stays : ∀ {t : State}, Still lib (· = ub) s t → t.trace = s.trace → t.net.socks = s.net.socks →
      (∀ other, (t.net.sock other).mail = (s.net.sock other).mail) →
      Afloat lib fund t ∧ ∀ other ∈ t.net.socks, ∃ l, Hauled lib fund s t other l := by
    intro t still trace socks mail
    refine ⟨got still trace socks mail, fun other known' =>
      ⟨s.lane lib other, Or.inl ⟨socks ▸ known', rfl⟩, ?_⟩⟩
    rw [still.lane afloat.tidy free]
  have body : ∀ count, ∀ other, ((gotBody lib cl ub count s).net.sock other).mail =
      (s.net.sock other).mail := fun count => update_keeps Sock.mail s.net.sock (by rfl)
  rcases recvBody_cases lib cl ub out s with same | ⟨count, ⟨-, same⟩ | ⟨-, same⟩ | ⟨-, same⟩⟩
  · rw [same]
    exact stays (still_of_net rfl rfl rfl).mono rfl rfl fun _ => rfl
  · rw [same]
    exact stays (still_takeBytes count s).mono rfl rfl (update_keeps Sock.mail s.net.sock (by rfl))
  · rw [same]
    refine stays ((still_gotBody cl ub count s).trans (still_mapRx _ _).mono) rfl rfl fun other => ?_
    exact (update_keeps Sock.mail (gotBody lib cl ub count s).net.sock (by rfl) other).trans (body count other)
  · rw [same]
    have still : Still lib (· = ub) s (gotBody lib cl ub count s) := still_gotBody cl ub count s
    obtain ⟨afloat', lanes⟩ := lanes_accept (got still rfl rfl (body count)) (inv_gotBody inv known count)
      known (pending_gotBody pending count)
    refine ⟨afloat', fun other known' => ?_⟩
    obtain ⟨l, start, tugs⟩ := lanes other known'
    rw [still.lane afloat.tidy free] at start
    refine ⟨l, start, tugs.lift id fun _ _ tug => tug.mono fun p idle => ?_⟩
    have queue : ((gotBody lib cl ub count s).sock other).cmdQueue = (s.sock other).cmdQueue :=
      update_keeps Sock.cmdQueue s.net.sock (by rfl) other
    rwa [Hush, queue] at idle

theorem lanes_connect (afloat : Afloat lib fund s) (inv : Inv lib [] s) (cred : Option Cred)
    (result : s' = ubusdProtoNewClient lib cred { s with cause := .connect s.reg.brk }) :
    Afloat lib fund s' ∧ ∀ cl ∈ s'.net.socks, ∃ l, Hauled lib fund s s' cl l := by
  obtain ⟨-, spares, fresh⟩ := newClient_spec inv cred
  rw [← result] at spares fresh
  have absent : s.reg.brk ∉ s.net.socks := fun known =>
    absurd (inv.good.clients.lt_of_has ((inv.clients _).mpr known)) (lt_irrefl _)
  obtain ⟨new, trace, -⟩ := spares.trace
  have more : s.trace ⊆ s'.trace := trace ▸ List.subset_append_right ..
  have tidy := afloat.tidy.mono fun _ watched => watched.mono more
  have known : ∀ cl ∈ s'.net.socks, cl ≠ s.reg.brk → cl ∈ s.net.socks := fun cl here differs =>
    (spares.socks cl differs).mp here
  have mail : ∀ cl ∈ s'.net.socks, ∀ ub ∈ (s'.net.sock cl).mail,
      cl ∈ s.net.socks ∧ ub ∈ (s.net.sock cl).mail := by
    intro cl here ub member
    by_cases same : cl = s.reg.brk
    · subst same
      obtain ⟨rx, queue⟩ := fresh here
      rw [Sock.mail, rx, queue] at member
      cases member
    · rw [(Rests.of_spares spares same).mail_eq] at member
      exact ⟨known cl here same, member⟩
  have nobody : s'.net = s.net → s'.allocs = s.allocs → s'.trace = s.trace →
      Afloat lib fund s' ∧ ∀ cl ∈ s'.net.socks, ∃ l, Hauled lib fund s s' cl l := fun net allocs trace =>
    lanes_of_ships afloat inv more (ships_of_net net (by rw [trace]) allocs) fun cl here => by
      rw [net] at here ⊢
      exact ⟨here, List.Subset.refl _⟩
  cases cred with
  | none =>
    subst result
    exact nobody rfl rfl rfl
  | some cred =>
    simp only [ubusdProtoNewClient] at result
    rcases alloc : ubusAllocId s.reg.clients s.reg.brk s.rnd with ⟨_ | ⟨id, clients⟩, rnd⟩
    · rw [alloc] at result
      subst result
      exact nobody rfl rfl rfl
    · rw [alloc] at result
      simp only at result
      set first : State := admitClient id clients cred { s with cause := .connect s.reg.brk, rnd } with firstDef
      have pipes : first.pipe lib = Function.update (s.pipe lib) s.reg.brk {} := admitClient_pipe ..
      have tidy1 : Tidy (Watched lib s'.trace) fund first :=
        Tidy.admitClient (s := { s with cause := .connect s.reg.brk, rnd })
          ⟨tidy.below, tidy.plain, tidy.status, tidy.watch, tidy.funded⟩ id clients cred
      have queued1 : ∀ ub, first.net.Queued ub → s.net.Queued ub := by
        rintro ub ⟨other, member⟩
        by_cases same : other = s.reg.brk
        · subst same
          simp [firstDef, admitClient, State.mapSock] at member
        · exact ⟨other, by simpa [firstDef, admitClient, State.mapSock, same] using member⟩
      obtain ⟨t, ships, greeted⟩ : ∃ t, Ships lib (Watched lib s'.trace) fund Nothing first t ∧ _ :=
        ships_greetClient s.reg.brk first
      have shipped := ships tidy1
      have ended : Tidy (Watched lib s'.trace) fund s' ∧ (∀ ub, s'.net.Queued ub → t.net.Queued ub) ∧
          ∀ cl, Tugs (Watched lib s'.trace cl) fund (Hush s cl) (t.lane lib cl) (s'.lane lib cl) := by
        rcases greeted with same | same
        · rw [← result] at same
          have queue : ∀ ub, s'.net.Queued ub → t.net.Queued ub := same ▸ fun _ is => is
          exact ⟨same ▸ shipped.tidy, queue, fun _ => same ▸ .refl⟩
        · rw [← result] at same
          have wrote : Wrote lib s.reg.brk { t.pipe lib s.reg.brk with armed := false } t s' := by
            rw [same]
            exact wrote_mapTx _ rfl fun _ member => member
          exact ⟨wrote.tidy shipped.tidy, wrote.queued, wrote.tugs (.single (.quieted fun here => absurd here absent))⟩
      refine ⟨⟨ended.1, afloat.mail_of inv mail fun ub is => ?_⟩, fun cl here => ?_⟩
      · rcases shipped.queued ub (ended.2.1 ub is) with is | new | nothing
        · exact Or.inl (queued1 ub is)
        · exact Or.inr new
        · exact nothing.elim
      · have tugs := (shipped.tugs cl).trans (ended.2.2 cl)
        have lane : first.lane lib cl = ⟨first.pipe lib cl, (s.lane lib cl).calls⟩ := rfl
        refine ⟨first.lane lib cl, ?_, tugs⟩
        by_cases same : cl = s.reg.brk
        · subst same
          rw [lane, pipes, Function.update_self]
          exact Or.inr ⟨absent, rfl⟩
        · rw [lane, pipes, Function.update_of_ne same]
          exact Or.inl ⟨known cl here same, rfl⟩

theorem lanes_disconnect (afloat : Afloat lib fund s) (inv : Inv lib [] s) (has : s.reg.HasClient cl)
    (result : s' = handleClientDisconnect lib cl s) :
    Afloat lib fund s' ∧ ∀ other ∈ s'.net.socks, ∃ l, Hauled lib fund s s' other l := by
  obtain ⟨-, absent, spares, -⟩ := disconnect_spec inv has
  rw [← result] at absent spares
  obtain ⟨new, trace, -⟩ := spares.trace
  have more : s.trace ⊆ s'.trace := trace ▸ List.subset_append_right ..
  have tidy := afloat.tidy.mono fun _ watched => watched.mono more
  obtain ⟨t, shipped, drops⟩ : ∃ t, Shipped lib (Watched lib s'.trace) fund Nothing s t ∧
      Drops lib cl t (handleClientDisconnect lib cl s) := shipped_disconnect tidy cl
  rw [← result] at drops
  have differs : ∀ other ∈ s'.net.socks, other ≠ cl := fun other here same => absent (same ▸ here)
  have known : ∀ other ∈ s'.net.socks, other ∈ s.net.socks := fun other here =>
    (spares.socks other (differs other here)).mp here
  refine ⟨⟨drops.tidy shipped.tidy, afloat.mail_of inv (fun other here ub member => ⟨known other here, ?_⟩)
    fun ub is => ?_⟩, fun other here => ⟨s.lane lib other, Or.inl ⟨known other here, rfl⟩, ?_⟩⟩
  · rwa [(Rests.of_spares spares (differs other here)).mail_eq] at member
  · exact (shipped.queued ub (drops.queued ub is)).imp_right fun rest => rest.elim id False.elim
  have lane : s'.lane lib other = t.lane lib other :=
    Lane.ext (drops.apart other (differs other here)) (congrFun drops.calls other)
  rw [lane]
  exact shipped.tugs other

/-- **Every move takes every lane by such steps**, and keeps what is queued safe. -/
theorem Move.lanes (move : Move lib s s') (inv : Inv lib [] s) (afloat : Afloat lib fund s)
    (lasts : fund → Funded s') :
    Afloat lib fund s' ∧ ∀ cl ∈ s'.net.socks, ∃ l, Hauled lib fund s s' cl l := by
  have turn := move.turn inv
  cases move with
  | begin writes allocs rnd =>
    refine ⟨⟨⟨afloat.tidy.below, afloat.tidy.plain, afloat.tidy.status, afloat.tidy.watch, lasts⟩,
      afloat.mail⟩, fun cl known => ⟨_, Or.inl ⟨known, rfl⟩, .refl⟩⟩
  | connect cred => exact lanes_connect afloat inv cred rfl
  | @arrive cl known bytes hup =>
    have received : Still lib Nothing s (s.mapRx cl fun rx => { rx with inbox := rx.inbox ++ bytes }) :=
      still_mapRx _ s
    have hung : Wrote lib cl { s.pipe lib cl with ended := (s.pipe lib cl).ended || hup } s
        ((s.mapRx cl fun rx => { rx with inbox := rx.inbox ++ bytes }).mapTx cl fun tx =>
          { tx with eof := tx.eof || hup }) :=
      received.wrote afloat.tidy (wrote_mapTx _ (by simp [Tx.pipe, State.pipe, State.mapRx, State.mapSock])
        fun _ => id)
    exact lanes_of_wrote afloat inv rfl (fun other => rests_arrive cl other bytes hup s) hung
      (.single (.hung hup))
  | write known first out =>
    obtain ⟨trace, rests⟩ := rests_txWrite lib _ _ out s
    rcases wrote_txWrite afloat.tidy.below first out with same | ⟨count, bound, wrote⟩
    · exact lanes_of_wrote afloat inv trace rests same .refl
    · exact lanes_of_wrote afloat inv trace rests wrote (.single (.drained count bound))
  | @resume cl cmd known first =>
    have resumes := resumes_resumeCmd inv known first
    refine lanes_of_ships afloat inv turn.trace_grows (ships_resumeCmd cl cmd s) fun other here => ?_
    refine ⟨resumes.socks ▸ here, ?_⟩
    by_cases same : other = cl
    · subst same
      have head : (s.net.sock other).cmdQueue = cmd :: (s.net.sock other).cmdQueue.tail :=
        List.eq_cons_of_mem_head? first
      have waiting : ((resumeCmd lib other cmd s).1.net.sock other).cmdQueue.map ClientCmd.msg ⊆
          (s.net.sock other).cmdQueue.map ClientCmd.msg := by
        rcases resumes.queue with queue | ⟨key, queue⟩
        · rw [queue]
          exact List.map_subset _ (List.tail_sublist _).subset
        · rw [queue]
          nth_rewrite 2 [head]
          exact List.Subset.refl _
      unfold Sock.mail
      rw [resumes.rx]
      exact List.append_subset.mpr ⟨List.Subset.trans waiting (List.subset_append_left ..),
        List.subset_append_right ..⟩
    · rw [(resumes.rests other same).mail_eq]
      exact List.Subset.refl _
  | quiet known written served =>
    refine lanes_of_wrote afloat inv rfl (fun other => rests_mapTx _ other _ s)
      (wrote_mapTx _ rfl fun _ => id) (.single (.quieted fun _ => ⟨List.map_eq_nil_iff.mpr written, served⟩))
  | header known none opened room out => exact lanes_header afloat inv known none out
  | body known pending out => exact lanes_body afloat inv known pending out
  | accept known pending complete => exact lanes_accept afloat inv known pending
  | disconnect known => exact lanes_disconnect afloat inv known rfl
  | aclLoad host dir fault =>
    have rests := rests_aclLoad inv host dir fault
    refine lanes_of_ships afloat inv turn.trace_grows (ships_aclLoad host dir fault s) fun other here => ?_
    exact ⟨(rests other).known.mp here, (rests other).mail_eq ▸ List.Subset.refl _⟩

theorem afloat_init (lib : Libubox) : Afloat lib fund State.init := by
  have nothing : ∀ ub, ¬ State.init.net.Queued ub := by
    rintro ub ⟨cl, member⟩
    cases member
  exact ⟨⟨fun ub is => absurd is (nothing ub), fun ub is => absurd is (nothing ub), nofun, nofun,
    fun _ => nofun⟩, nofun⟩

/-- **In every state that a run goes through, queued messages are safe.** -/
theorem Reachable.afloat (reachable : Reachable lib s) : Afloat lib False s := by
  induction reachable with
  | refl => exact afloat_init lib
  | tail before move ih => exact (move.lanes (Reachable.inv before) ih False.elim).1

end Lanes

end Ubus
