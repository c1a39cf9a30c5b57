/-
**A message that arrives in full is accepted.**

* `arrived` — the daemon with a message in its receive buffer, its header and its payload read at once.
* `moves_arrived`: the daemon gets there from any state in which it waits for a message, whatever
  `sendmsg` is going to return; then the message is accepted.
-/

import Ubus.Moves

namespace Ubus

open Lib Relation

/-- The bytes of a message have been read: `head` are the eight bytes of the header and the four of the
blob, `body` the rest. -/
def arrived (cl : Nat) (head body : Bytes) (writes : List WriteOutcome) (rnd : List UInt32) (s : State) :
    State :=
  { s with
    writes, allocs := [], rnd, cause := .idle
    net := { s.net with
      buf := Function.update s.net.buf s.net.brk
        { refcount := .count 1, hdr := parseHdr head, data := .received (head.drop 8 ++ body), live := true }
      brk := s.net.brk + 1
      sock := Function.update s.net.sock cl { s.sock cl with rx := { s.rx cl with
        pendingMsg := some s.net.brk, pendingMsgOffset := 12, hdrbuf := head, inbox := []
        consumed := (s.rx cl).consumed ++ head ++ body } } } }

variable {lib : Libubox} {cl : Nat} {s : State} {head body : Bytes}

theorem recvHeader_whole (waits : (s.rx cl).pendingMsg = none ∧ (s.rx cl).pendingMsgOffset = 0)
    (inbox : (s.rx cl).inbox = head ++ body) (whole : head.length = 12) (funded : s.allocs = [])
    (least : 4 ≤ blobRawLen (head.drop 8)) (most : blobPadLen (blobRawLen (head.drop 8)) ≤ ubusMaxMsglen) :
    (recvHeader cl (.got 11 false) s).2 =
      { s with net := { s.net with
        buf := Function.update s.net.buf s.net.brk
          { refcount := .count 1, hdr := parseHdr head, data := .received (head.drop 8), live := true }
        brk := s.net.brk + 1
        sock := Function.update s.net.sock cl { s.sock cl with rx := { s.rx cl with
          pendingMsg := some s.net.brk, pendingMsgOffset := 12, hdrbuf := head, inbox := body
          consumed := (s.rx cl).consumed ++ head } } } } := by
  have long : ¬ (head ++ body).length < 12 := by
    rw [List.length_append, whole]
    omega
  have first : (head ++ body).take 12 = head := by
    rw [← whole]
    exact List.take_left
  have rest : (head ++ body).drop 12 = body := by
    rw [← whole]
    exact List.drop_left
  simp only [recvHeader, takeBytes, recvFd, waits, inbox, State.mapRx, State.mapSock, State.rx,
    Function.update_self, Function.update_idem, Nat.sub_zero, min_self, first, rest, whole]
  simp [headerDone, ubusMsgNew, State.calloc, allocBuf, State.mapBuf, State.mapHdr, State.mapRx,
    State.mapSock, funded, least.not_gt, most.not_gt]

theorem recvBody_whole {ub : Nat} {start : Bytes} (data : (s.buf ub).data = .received start)
    (offset : (s.rx cl).pendingMsgOffset = 12) (inbox : (s.rx cl).inbox = body) (filled : body ≠ [])
    (len : blobRawLen start = body.length + 4) :
    recvBody lib cl ub (.got (body.length - 1) false) s = (.retry, acceptMessage lib cl ub
      { s with net := { s.net with
        buf := Function.update s.net.buf ub { s.buf ub with data := .received (start ++ body) }
        sock := Function.update s.net.sock cl { s.sock cl with rx := { s.rx cl with
          inbox := [], consumed := (s.rx cl).consumed ++ body } } } }) := by
  have some : 0 < body.length := List.length_pos_iff.mpr filled
  have left : bodyLeft lib cl ub s = body.length := by
    unfold bodyLeft
    rw [data, offset, Payload.bytes, len]
    omega
  have count : min (body.length - 1 + 1) body.length = body.length := by omega
  simp [recvBody, left, takeBytes, count, inbox, State.mapRx, State.mapSock, State.mapBuf, filled, data,
    Payload.bytes]

/-- **A message that arrives is accepted.** -/
theorem moves_arrived (known : s.reg.HasClient cl) (opened : (s.tx cl).eof = false)
    (waits : (s.rx cl).pendingMsg = none ∧ (s.rx cl).pendingMsgOffset = 0) (empty : (s.rx cl).inbox = [])
    (whole : head.length = 12) (filled : body ≠ []) (len : blobRawLen (head.drop 8) = body.length + 4)
    (most : blobPadLen (blobRawLen (head.drop 8)) ≤ ubusMaxMsglen) (writes : List WriteOutcome)
    (rnd : List UInt32) : ReflTransGen (Move lib) s
      (acceptMessage lib cl s.net.brk (arrived cl head body writes rnd s)) := by
  obtain ⟨t, here⟩ : ∃ t : State, t = { s with
    writes, allocs := [], rnd, cause := .idle
    net := { s.net with sock := Function.update s.net.sock cl { s.sock cl with rx :=
      { s.rx cl with inbox := head ++ body } } } } := ⟨_, rfl⟩
  have begun : ReflTransGen (Move lib) s t := by
    have arrive : Move lib { s with writes, allocs := [], rnd, cause := .idle } _ :=
      .arrive (by exact known) (head ++ body) false
    simp only [State.mapTx, State.mapRx, State.mapSock, Function.update_self, Function.update_idem,
      Bool.or_false, empty, List.nil_append] at arrive
    rw [here]
    exact .tail (.single (.begin writes [] rnd)) arrive
  have rx : t.rx cl = { s.rx cl with inbox := head ++ body } := by simp [here]
  have waits' : (t.rx cl).pendingMsg = none ∧ (t.rx cl).pendingMsgOffset = 0 := by
    rw [rx]
    exact waits
  have known' : t.reg.HasClient cl := here ▸ known
  have header : Move lib t (recvHeader cl (.got 11 false) t).2 :=
    .header known' waits'.1 (by simp [here, opened]) (by omega) (.got 11 false)
  rw [recvHeader_whole waits' (by rw [rx]) whole (by rw [here]) (by omega) most] at header
  refine (begun.tail header).tail ?_
  generalize read : ({ t with net := _ } : State) = u at header ⊢
  have data : (u.buf s.net.brk).data = .received (head.drop 8) := by simp [← read, here]
  have body' : recvBody lib cl s.net.brk (.got (body.length - 1) false) u = _ :=
    recvBody_whole data (by simp [← read]) (by simp [← read]) filled len
  have move : Move lib u (recvBody lib cl s.net.brk (.got (body.length - 1) false) u).2 :=
    .body (by rw [← read]; exact known') (by simp [← read, here]) _
  rw [body'] at move
  convert move using 2
  simp [← read, here, arrived]

end Ubus
