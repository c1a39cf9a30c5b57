/-
**The life of a request.**

An abstract model of one request: whether it is linked in `ctx->requests`, its structure, the frames
that work on it and the events about it. Everything else in the context (other requests, the socket,
the application) is only a source of moves. `Lives` lists them, one for each thing that can happen to
a request; what the application may do with it is the parameter `may`.

* `life`: the life of a request in a state of the context.
* `life_run`: what the moves keep, every run keeps from there on.
-/

import Ubus.Libubus.Single

namespace Ubus.Libubus

variable {lib : Libubox}
variable {s' t u : State} {rest : List Frame} {v : Life} {frame : Frame} {cb : CompleteCb}
  {ok : State → Action → Prop} {timed : Bool} {type : UInt8} {data : Nat} {P : Life → Prop}

/-! ### Lives -/

/-- The status in a message, or another one. -/
def statusIn (lib : Libubox) (content : Bytes) (ret : UInt32) : UInt32 :=
  match lib.blobParse content .status with
  | none => ret
  | some attr => lib.blobGetU32 attr

/-- The subscribers listed in a message. -/
def subscribersIn (lib : Libubox) (content : Bytes) : List Bytes :=
  match lib.blobParse content .subscribers with
  | none => []
  | some attr => lib.blobForEachAttr attr

structure Life where
  linked : Bool
  req : Request
  frames : List Frame
  events : List Event

namespace Life

def push (frame : Frame) (v : Life) : Life := { v with frames := frame :: v.frames }

def log (event : Event) (v : Life) : Life := { v with events := event :: v.events }

def call (cb : Callback) (v : Life) : Life := (v.log (.call cb)).push (.app cb)

def map (f : Request → Request) (v : Life) : Life := { v with req := f v.req }

/-- `runCompleteCb`. -/
def runCb (r : Nat) (cb : CompleteCb) (ret : UInt32) (v : Life) : Life :=
  match cb with
  | .null => v
  | .sync => v.map fun req => { req with statusMsg := true, statusCode := ret }
  | .user => (v.log (.completed r ret)).call (.complete r ret)
  | .notify =>
    let v := v.log (.completed r ret)
    if v.req.notifyCompleteCb then v.call (.notifyComplete r) else v

/-- `ubus_req_complete_cb`. -/
def complete (r : Nat) (v : Life) : Life :=
  (v.map fun req => { req with completeCb := .null }).runCb r v.req.completeCb v.req.statusCode

def mark (ret : UInt32) (v : Life) : Life :=
  { v with linked := false, req := { v.req with statusMsg := true, statusCode := ret } }

/-- `ubus_set_req_status`. -/
def setStatus (r : Nat) (ret : UInt32) (v : Life) : Life :=
  if (v.mark ret).req.blocked then v.mark ret else (v.mark ret).complete r

/-- `ubus_complete_request` up to its loop. -/
def wait (r : Nat) (timed : Bool) (v : Life) : Life :=
  ({ v with linked := true }.push (.waitLoop r v.req.completeCb timed)).map fun req =>
    { req with completeCb := .sync }

def status (v : Life) : UInt32 :=
  if v.req.statusMsg then v.req.statusCode else Status.noData.code

/-- `ubus_complete_request` after its loop. -/
def waitEnd (r : Nat) (cb : CompleteCb) (v : Life) : Life :=
  ((v.map fun req => { req with completeCb := cb }).push (.waitCompleted r cb v.status)).runCb r cb
    v.status

/-- `ubus_abort_request`. -/
def abort (v : Life) : Life :=
  if v.linked then
    { v with linked := false, req := { v.req with cancelled := true, pending := [] } }
  else v

/-- `processReqDataLoop`. -/
def drain (r : Nat) (entry : Option Nat) (v : Life) : Life :=
  match entry with
  | none =>
    let v := v.map fun req => { req with blocked := false }
    if v.req.statusMsg then v.complete r else v
  | some data =>
    match v.req.pending.find? fun entry => entry.2 = data with
    | none => v
    | some (type, _) =>
      let taken := v.map fun req =>
        { req with pending := req.pending.filter fun entry => entry.2 ≠ data }
      let v := taken.push (.drain r data (nextEntry data v.req.pending))
      if v.req.cancelled then v else v.push (.reqDataCb r type data)

/-- The end of `ubus_process_notify_status`. -/
def notifyEnd (r : Nat) (v : Life) : Life :=
  if v.req.notifyPending = 0 then v.push (.setReqStatus r Status.ok.code) else v

/-- `processStatus` of a message with this content. -/
def process (lib : Libubox) (r : Nat) (id : Option Nat) (peer : UInt32) (content : Bytes)
    (v : Life) : Life :=
  match id with
  | none =>
    (v.map fun req => { req with peer }).push
      (.setReqStatus r (statusIn lib content Status.invalidArgument.code))
  | some id =>
    let v := (v.map fun n => { n with notifyPending := n.notifyPending &&& ~~~(1#32 <<< id) }).log
      (.notified r id content)
    if id = 0 then (v.map (addPeers lib 1 (subscribersIn lib content))).notifyEnd r
    else if v.req.notifyStatusCb then
      (v.push (.notifyStatus r)).call (.notifyStatus r id (statusIn lib content Status.ok.code))
    else v.notifyEnd r

end Life

/-- What the application does with a request it has started. -/
inductive Handling where
  | link | wait | abort
deriving DecidableEq, Repr

/-- **The moves of a request's life.** -/
inductive Lives (lib : Libubox) (may : Life → Handling → Prop) (r : Nat) (v : Life) : Life → Prop where
  | link (allowed : may v .link) : Lives lib may r v { v with linked := true }
  | wait (allowed : may v .wait) (timed : Bool) : Lives lib may r v (v.wait r timed)
  | abort (allowed : may v .abort) : Lives lib may r v v.abort
  | ret (cb : Callback) (rest : List Frame) (top : v.frames = .app cb :: rest) :
    Lives lib may r v { v with frames := rest }
  | flush (linked : v.linked = true) :
    Lives lib may r v (v.push (.setReqStatus r Status.timeout.code))
  /-- A status message with a descriptor, for which there is a callback. -/
  | fd (linked : v.linked = true) (seq : UInt16) (peer : UInt32) (id : Option Nat)
    (hit : v.req.matches seq peer = some id) (set : v.req.fdCb = true) (buf : MsghdrBuf) (sock : Nat) :
    Lives lib may r v ((v.push (.processStatus r id buf)).call (.fd r sock))
  | status (linked : v.linked = true) (seq : UInt16) (peer : UInt32) (id : Option Nat)
    (hit : v.req.matches seq peer = some id) (content : Bytes) :
    Lives lib may r v (v.process lib r id peer content)
  | data (linked : v.linked = true) (free : v.req.blocked = false) (type : UInt8) (data : Nat)
    (content : Bytes) :
    Lives lib may r v ((((v.map fun req => { req with blocked := true }).log
      (.gotData r type content)).push (.processReqData r)).push (.reqDataCb r type data))
  | queue (linked : v.linked = true) (busy : v.req.blocked = true) (type : UInt8) (copy : Nat)
    (content : Bytes) :
    Lives lib may r v ((v.log (.gotData r type content)).map fun req =>
      { req with pending := (type, copy) :: req.pending })
  | rawData (type : UInt8) (data : Nat) (rest : List Frame)
    (top : v.frames = .reqDataCb r type data :: rest) (set : v.req.rawDataCb = true) (msg : Ptr) :
    Lives lib may r v
      (({ v with frames := rest }.push (.reqDataCbParse r type data)).call (.rawData r type msg))
  | dataCb (frame : Frame) (rest : List Frame) (top : v.frames = frame :: rest)
    (type : UInt8) (data : Nat)
    (which : frame = .reqDataCb r type data ∧ v.req.rawDataCb = false ∨
      frame = .reqDataCbParse r type data)
    (set : v.req.dataCb = true) (msg : Ptr) :
    Lives lib may r v ({ v with frames := rest }.call (.data r type msg))
  /-- A message without data, or without a callback for it. -/
  | noData (frame : Frame) (rest : List Frame) (top : v.frames = frame :: rest)
    (type : UInt8) (data : Nat)
    (which : frame = .reqDataCb r type data ∧ v.req.rawDataCb = false ∨
      frame = .reqDataCbParse r type data) :
    Lives lib may r v { v with frames := rest }
  | deliver (rest : List Frame) (top : v.frames = .processReqData r :: rest) :
    Lives lib may r v ({ v with frames := rest }.drain r (v.req.pending.head?.map Prod.snd))
  | drain (data : Nat) (tmp : Option Nat) (rest : List Frame)
    (top : v.frames = .drain r data tmp :: rest) :
    Lives lib may r v ({ v with frames := rest }.drain r tmp)
  | setStatus (ret : UInt32) (rest : List Frame) (top : v.frames = .setReqStatus r ret :: rest) :
    Lives lib may r v ({ v with frames := rest }.setStatus r ret)
  | process (id : Option Nat) (buf : MsghdrBuf) (rest : List Frame)
    (top : v.frames = .processStatus r id buf :: rest) (peer : UInt32) (content : Bytes) :
    Lives lib may r v ({ v with frames := rest }.process lib r id peer content)
  | notifyEnd (rest : List Frame) (top : v.frames = .notifyStatus r :: rest) :
    Lives lib may r v ({ v with frames := rest }.notifyEnd r)
  | waitTimeout (cb : CompleteCb) (timed : Bool) (rest : List Frame)
    (top : v.frames = .waitLoop r cb timed :: rest) (waiting : v.req.statusMsg = false) :
    Lives lib may r v (({ v with frames := rest }.push (.waitEnd r cb false)).push
      (.setReqStatus r Status.timeout.code))
  | waitPoll (cb : CompleteCb) (timed : Bool) (rest : List Frame)
    (top : v.frames = .waitLoop r cb timed :: rest) (waiting : v.req.statusMsg = false) :
    Lives lib may r v ({ v with frames := rest }.push (.waitPolled r cb timed))
  | waitDone (cb : CompleteCb) (timed : Bool) (rest : List Frame)
    (top : v.frames = .waitLoop r cb timed :: rest) (done : v.req.statusMsg = true) :
    Lives lib may r v ({ v with frames := rest }.waitEnd r cb)
  | waitLost (cb : CompleteCb) (timed : Bool) (rest : List Frame)
    (top : v.frames = .waitPolled r cb timed :: rest) :
    Lives lib may r v (({ v with frames := rest }.push (.waitEnd r cb true)).push
      (.setReqStatus r Status.connectionFailed.code))
  | waitAgain (cb : CompleteCb) (timed : Bool) (rest : List Frame)
    (top : v.frames = .waitPolled r cb timed :: rest) :
    Lives lib may r v ({ v with frames := rest }.push (.waitLoop r cb timed))
  | waitEnd (cb : CompleteCb) (lost : Bool) (rest : List Frame)
    (top : v.frames = .waitEnd r cb lost :: rest) :
    Lives lib may r v ({ v with frames := rest }.waitEnd r cb)
  | waitCompleted (cb : CompleteCb) (status : UInt32) (rest : List Frame)
    (top : v.frames = .waitCompleted r cb status :: rest) :
    Lives lib may r v ({ v with frames := rest }.push (.waitReturn r cb status))
  | waitReturn (cb : CompleteCb) (status : UInt32) (rest : List Frame)
    (top : v.frames = .waitReturn r cb status :: rest) :
    Lives lib may r v ({ v with frames := rest }.log (.returned r status))

/-! ### The life of a request in a context -/

/-- What a state of the context holds about a request. -/
def life (r : Nat) (s : State) : Life :=
  ⟨decide (r ∈ s.requests), s.req r, own r s.stack, ownEvents r s.trace⟩

section View

variable {r : Nat} {s : State}

theorem life_aside (aside : Aside r s s') : life r s' = life r s := by
  rw [life, aside.req, aside.stack, aside.trace, decide_eq_decide.mpr aside.linked, life]

theorem life_neutral (neutral : Neutral s s') : life r s' = life r s :=
  life_aside (neutral.aside_same r)

theorem life_parseMsg (data : Option Nat) : life r (ubusParseMsg lib data s) = life r s := by
  cases data <;> rfl

theorem life_skip (free : frame.req = none) : life r (s.push frame) = life r s :=
  congrArg (Life.mk _ _ · _) (own_cons_of_ne (by rw [free]; exact (Option.some_ne_none r).symm) _)

theorem life_drop (top : s.stack = frame :: rest) (free : frame.req = none) :
    life r { s with stack := rest } = life r s := by
  have pushed : life r ({ s with stack := rest }.push frame) = life r { s with stack := rest } :=
    life_skip free
  rw [← pushed, State.push, ← top]

theorem life_push (about : frame.req = some r) : life r (s.push frame) = (life r s).push frame := by
  rw [life, Life.push, life]
  exact congrArg (Life.mk _ _ · _) (own_cons_of_eq about _)

theorem life_log {event : Event} (about : event.req = some r) :
    life r (s.log event) = (life r s).log event := by
  rw [life, Life.log, life]
  exact congrArg (Life.mk _ _ _) (List.filter_cons_of_pos (by simpa using about))

theorem life_call {cb : Callback} (about : cb.req = some r) :
    life r (s.call cb) = (life r s).call cb := by
  have logged : life r (s.log (.call cb)) = (life r s).log (.call cb) := life_log about
  have pushed : life r ((s.log (.call cb)).push (.app cb)) =
      (life r (s.log (.call cb))).push (.app cb) := life_push about
  rw [State.call, pushed, logged, Life.call]

theorem life_mapReq (f : Request → Request) : life r (s.mapReq r f) = (life r s).map f := by
  rw [life, Life.map, life]
  exact congrArg (Life.mk _ · _ _) (Function.update_self ..)

theorem life_pop (top : s.stack = frame :: rest) (about : frame.req = some r) :
    (life r s).frames = frame :: own r rest ∧
      life r { s with stack := rest } = { life r s with frames := own r rest } := by
  refine ⟨?_, rfl⟩
  show own r s.stack = _
  rw [top, own_cons_of_eq about]

theorem life_runCompleteCb (cb : CompleteCb) (ret : UInt32) :
    life r (runCompleteCb cb r ret s) = (life r s).runCb r cb ret := by
  cases cb with
  | null => rfl
  | user =>
    rw [runCompleteCb, life_call rfl, life_log rfl]
    rfl
  | sync =>
    have marked : life r (s.mapReq r fun req => { req with statusMsg := true, statusCode := ret }) =
        (life r s).map fun req => { req with statusMsg := true, statusCode := ret } := life_mapReq _
    exact marked
  | notify =>
    have logged : life r (s.log (.completed r ret)) = (life r s).log (.completed r ret) :=
      life_log rfl
    simp only [runCompleteCb, Life.runCb]
    rw [← logged]
    show life r (if (s.req r).notifyCompleteCb then _ else _) =
      if (s.req r).notifyCompleteCb then _ else _
    split
    · exact life_call rfl
    · rfl

theorem life_reqCompleteCb : life r (ubusReqCompleteCb r s) = (life r s).complete r := by
  rw [ubusReqCompleteCb, life_runCompleteCb, life_mapReq]
  rfl

theorem life_markStatus (ret : UInt32) : life r (markStatus r ret s) = (life r s).mark ret := by
  rw [markStatus, life_mapReq]
  exact congrArg (Life.mk · _ _ _) (decide_eq_false fun linked => (mem_unlink.mp linked).2 rfl)

theorem life_setReqStatus (ret : UInt32) :
    life r (ubusSetReqStatus r ret s) = (life r s).setStatus r ret := by
  rw [Life.setStatus, ← life_markStatus, ← life_reqCompleteCb]
  exact apply_ite (life r) ..

theorem life_link : life r (ubusCompleteRequestAsync r s) = { life r s with linked := true } := by
  unfold ubusCompleteRequestAsync
  split
  · rename_i linked
    rw [life, decide_eq_true linked]
  · exact congrArg (Life.mk · _ _ _) (decide_eq_true List.mem_cons_self)

theorem life_wait (timed : Bool) : life r (ubusCompleteRequest r timed s) = (life r s).wait r timed := by
  have linked : life r (ubusCompleteRequestAsync r s) = { life r s with linked := true } := life_link
  have pushed : ∀ cb, life r ((ubusCompleteRequestAsync r s).push (.waitLoop r cb timed)) =
      ({ life r s with linked := true } : Life).push (.waitLoop r cb timed) := by
    intro cb
    rw [life_push rfl, linked]
  unfold Life.wait
  rw [← pushed, ← life_mapReq]
  rfl

theorem life_waitEnd (cb : CompleteCb) : life r (waitEnd r cb s) = (life r s).waitEnd r cb := by
  have mapped := life_mapReq (r := r) (s := s) fun req => { req with completeCb := cb }
  have lowered : life r (waitLower r cb s) = (life r s).map fun req => { req with completeCb := cb } :=
    mapped
  rw [waitEnd, life_runCompleteCb, life_push rfl, lowered]
  rfl

theorem life_abort : life r (ubusAbortRequest r s) = (life r s).abort := by
  unfold ubusAbortRequest Life.abort
  by_cases linked : r ∈ s.requests
  · have set : (life r s).linked = true := decide_eq_true linked
    have out : decide (r ∈ unlink r s.requests) = false :=
      decide_eq_false fun linked => (mem_unlink.mp linked).2 rfl
    have mapped : ∀ buf f, life r (({ s with buf } : State).mapReq r f) = (life r s).map f :=
      fun _ _ => life_mapReq _
    dsimp only
    rw [if_neg (not_not.mpr linked), if_pos set, freeAll_eq]
    exact (congrArg (Life.mk · _ _ _) out).trans
      (congrArg (fun v : Life => { v with linked := false }) (mapped _ _))
  · have unset : ¬ (life r s).linked = true := by simpa [life] using linked
    rw [if_pos linked, if_neg unset]

theorem life_processReqDataLoop (entry : Option Nat) :
    life r (processReqDataLoop r entry s) = (life r s).drain r entry := by
  cases entry with
  | none =>
    have free : life r (unblock r s) = (life r s).map fun req => { req with blocked := false } :=
      life_mapReq _
    simp only [Life.drain]
    rw [← free, ← life_reqCompleteCb]
    exact apply_ite (life r) ..
  | some data =>
    simp only [processReqDataLoop, Life.drain]
    cases found : (s.req r).pending.find? fun entry => entry.2 = data with
    | none =>
      have same : (life r s).req.pending.find? (fun entry => entry.2 = data) = none := found
      rw [same]
      rfl
    | some entry =>
      have same : (life r s).req.pending.find? (fun entry => entry.2 = data) = some entry := found
      rw [same]
      dsimp only
      rw [← life_mapReq, ← life_push rfl, ← life_push rfl]
      exact apply_ite (life r) ..

theorem life_notifyStatusEnd : life r (notifyStatusEnd r s) = (life r s).notifyEnd r := by
  rw [Life.notifyEnd, ← life_push rfl]
  exact apply_ite (life r) ..

theorem statusOf_parsed (buf : MsghdrBuf) (same : t.buf = s.buf)
    (parsed : u.attrbuf = (ubusParseMsg lib (s.data buf) t).attrbuf) (ret : UInt32) :
    statusOf lib u ret = statusIn lib (s.content buf) ret := by
  have table := parseMsg_attrbuf lib buf s t same .status
  rw [← parsed] at table
  unfold statusOf statusIn
  rw [← table]
  cases u.attrbuf .status <;> rfl

theorem subscribersOf_parsed (buf : MsghdrBuf) (same : t.buf = s.buf)
    (parsed : u.attrbuf = (ubusParseMsg lib (s.data buf) t).attrbuf) :
    subscribersOf lib u = subscribersIn lib (s.content buf) := by
  have table := parseMsg_attrbuf lib buf s t same .subscribers
  rw [← parsed] at table
  unfold subscribersOf subscribersIn
  rw [← table]
  cases u.attrbuf .subscribers <;> rfl

theorem life_processStatus (id : Option Nat) (buf : MsghdrBuf) :
    life r (processStatus lib r id buf s) =
      (life r s).process lib r id (s.hdr buf).peer (s.content buf) := by
  cases id with
  | none =>
    have code : ∀ f, statusOf lib ((ubusParseMsg lib (s.data buf) s).mapReq r f)
        Status.invalidArgument.code = statusIn lib (s.content buf) Status.invalidArgument.code :=
      fun _ => statusOf_parsed buf rfl rfl _
    have header : (ubusParseMsg lib (s.data buf) s).hdr buf = s.hdr buf := by
      generalize s.data buf = data
      cases buf <;> cases data <;> rfl
    simp only [processStatus, ubusProcessReqStatus, Life.process]
    rw [life_push rfl, code, life_mapReq, life_parseMsg, header]
  | some id =>
    have begun : life r (notifyParsed lib r id buf s) = ((life r s).map fun n =>
        { n with notifyPending := n.notifyPending &&& ~~~(1#32 <<< id) }).log
          (.notified r id (s.content buf)) := by
      rw [notifyParsed, life_log rfl, life_parseMsg, life_mapReq]
    have parsed : (notifyParsed lib r id buf s).attrbuf = (ubusParseMsg lib (s.data buf) (s.mapReq r
        fun n => { n with notifyPending := n.notifyPending &&& ~~~(1#32 <<< id) })).attrbuf := rfl
    have code : statusOf lib (notifyParsed lib r id buf s) Status.ok.code =
        statusIn lib (s.content buf) Status.ok.code := statusOf_parsed buf (by rfl) parsed _
    have peers : subscribersOf lib (notifyParsed lib r id buf s) =
        subscribersIn lib (s.content buf) := subscribersOf_parsed buf (by rfl) parsed
    simp only [processStatus, ubusProcessNotifyStatus, Life.process]
    rw [← begun, peers, code, ← life_mapReq, ← life_notifyStatusEnd, ← life_push rfl, ← life_call rfl,
      ← life_notifyStatusEnd]
    rw [apply_ite (life r), apply_ite (life r)]
    rfl

theorem life_reqDataCbParse (type : UInt8) (data : Nat) :
    life r (reqDataCbParse lib r type data s) = life r s ∨
      (s.req r).dataCb = true ∧
        ∃ msg, life r (reqDataCbParse lib r type data s) = (life r s).call (.data r type msg) := by
  have parsed : life r (ubusParseMsg lib (some data) s) = life r s := life_parseMsg _
  simp only [reqDataCbParse]
  split
  · exact .inl rfl
  rename_i set
  split
  · exact .inl parsed
  rename_i attr present
  split
  · exact .inl parsed
  · exact .inr ⟨by simpa using set, attr, by rw [life_call rfl, parsed]⟩

theorem life_processReqData (env : Env) (buf : MsghdrBuf) :
    life r (ubusProcessReqData env r buf s) = life r s ∨ ∃ type data content,
      (s.req r).blocked = false ∧ life r (ubusProcessReqData env r buf s) =
        ((((life r s).map fun req => { req with blocked := true }).log
          (.gotData r type content)).push (.processReqData r)).push (.reqDataCb r type data) ∨
      (s.req r).blocked = true ∧ life r (ubusProcessReqData env r buf s) =
        ((life r s).log (.gotData r type content)).map fun req =>
          { req with pending := (type, data) :: req.pending } := by
  have copied : ∀ bytes (t : State), life r (t.copy bytes) = life r t := fun _ _ => rfl
  simp only [ubusProcessReqData]
  split
  · exact .inl rfl
  rename_i data present
  split
  · rename_i free
    refine .inr ⟨(s.hdr buf).type, data, (s.buf data).content, .inl ⟨by simpa using free, ?_⟩⟩
    rw [life_push rfl, life_push rfl, life_log rfl, life_mapReq]
  split
  · rename_i busy _
    refine .inr ⟨(s.hdr buf).type, s.brk, (s.buf data).content, .inr ⟨by simpa using busy, ?_⟩⟩
    rw [life_mapReq, copied, life_log rfl]
    rfl
  · exact .inl rfl

theorem findRequest_linked {seq : UInt16} {peer : UInt32} {id : Option Nat}
    (found : ubusFindRequest s seq peer = some (r, id)) :
    (life r s).linked = true ∧ (life r s).req.matches seq peer = some id := by
  obtain ⟨other, linked, hit⟩ := List.exists_of_findSome?_eq_some found
  obtain ⟨slot, matched, same⟩ := Option.map_eq_some_iff.mp hit
  obtain ⟨rfl, rfl⟩ := Prod.mk.inj same
  exact ⟨decide_eq_true linked, matched⟩

end View

/-! ### Steps are moves -/

/-- What the application may do with the requests it has started; its other actions are free. -/
def Handled (may : Life → Handling → Prop) (s : State) : Action → Prop
  | .completeAsync r => r < s.brk ∧ may (life r s) .link
  | .complete r _ => r < s.brk ∧ may (life r s) .wait
  | .abort r => r < s.brk ∧ may (life r s) .abort
  | _ => True

/-- What the application does with a request in a run is what `may` allows. -/
structure Permits (ok : State → Action → Prop) (may : Life → Handling → Prop) (r : Nat) : Prop where
  link : ∀ s, ok s (.completeAsync r) → may (life r s) .link
  wait : ∀ s timed, ok s (.complete r timed) → may (life r s) .wait
  abort : ∀ s, ok s (.abort r) → may (life r s) .abort

theorem handled_permits (may : Life → Handling → Prop) (r : Nat) : Permits (Handled may) may r :=
  ⟨fun _ allowed => allowed.2, fun _ _ allowed => allowed.2, fun _ allowed => allowed.2⟩

section Moves

variable {may : Life → Handling → Prop} {r : Nat} {s : State}

theorem lives_waitLoop (env : Env) (top : v.frames = .waitLoop r cb timed :: rest)
    (popped : life r s = { v with frames := rest }) :
    Lives lib may r v (life r (waitLoop env r cb timed s)) := by
  have flag : (s.req r).statusMsg = v.req.statusMsg := congrArg (fun v => v.req.statusMsg) popped
  unfold waitLoop
  rw [flag]
  split
  · rename_i done
    rw [life_waitEnd, popped]
    exact .waitDone cb timed rest top done
  · rename_i waiting
    rw [Bool.not_eq_true] at waiting
    split
    · rw [life_push rfl, life_push rfl, popped]
      exact .waitTimeout cb timed rest top waiting
    have polled : ∀ t, life r (ubusPollData t) = life r t := fun _ => life_skip rfl
    rw [polled, life_push rfl, popped]
    exact .waitPoll cb timed rest top waiting

theorem lives_waitPolled (top : v.frames = .waitPolled r cb timed :: rest)
    (popped : life r s = { v with frames := rest }) :
    Lives lib may r v (life r (waitPolled r cb timed s)) := by
  unfold waitPolled
  split
  · rw [life_push rfl, life_push rfl, popped]
    exact .waitLost cb timed rest top
  · rw [life_push rfl, popped]
    exact .waitAgain cb timed rest top

theorem lives_waitCompleted {status : UInt32}
    (top : v.frames = .waitCompleted r cb status :: rest)
    (popped : life r s = { v with frames := rest }) :
    Lives lib may r v (life r (waitCompleted r cb status s)) := by
  have pushed : life r (waitCompleted r cb status s) = (life r s).push (.waitReturn r cb status) := by
    simp only [waitCompleted]
    split
    · rw [life_skip rfl, life_push rfl]
    · exact life_push rfl
  rw [pushed, popped]
  exact .waitCompleted cb status rest top

theorem lives_dataCb (top : v.frames = frame :: rest)
    (popped : life r s = { v with frames := rest })
    (which : frame = .reqDataCb r type data ∧ v.req.rawDataCb = false ∨ frame = .reqDataCbParse r type data) :
    Lives lib may r v (life r (reqDataCbParse lib r type data s)) := by
  rcases (life_reqDataCbParse type data : life r (reqDataCbParse lib r type data s) = life r s ∨ _)
    with same | ⟨set, msg, called⟩
  · rw [same, popped]
    exact .noData frame rest top type data which
  have set : v.req.dataCb = true := by
    rw [← set]
    exact (congrArg (fun v => v.req.dataCb) popped).symm
  rw [called, popped]
  exact .dataCb frame rest top type data which set msg

theorem lives_rawData (top : v.frames = .reqDataCb r type data :: rest)
    (popped : life r s = { v with frames := rest }) :
    Lives lib may r v (life r (reqDataCb lib r type data s)) := by
  have flag : (s.req r).rawDataCb = v.req.rawDataCb := congrArg (fun v => v.req.rawDataCb) popped
  unfold reqDataCb
  rw [flag]
  split
  · rename_i set
    rw [life_call rfl, life_push rfl, popped]
    exact .rawData type data rest top set _
  · rename_i unset
    exact lives_dataCb top popped (.inl ⟨rfl, by simpa using unset⟩)

theorem lives_frame (env : Env) (top : s.stack = frame :: rest) (about : frame.req = some r)
    (inside : ∀ cb, frame ≠ .app cb) :
    Lives lib may r (life r s) (life r (resume lib env frame { s with stack := rest })) := by
  obtain ⟨top, popped⟩ := life_pop top about
  have freed : ∀ b (t : State), life r (t.free b) = life r t := fun _ _ => rfl
  cases frame with
  | app cb => exact absurd rfl (inside cb)
  | reqDataCb r' type data => cases about; exact lives_rawData top popped
  | reqDataCbParse r' type data => cases about; exact lives_dataCb top popped (.inr rfl)
  | processReqData r' =>
    cases about
    rw [resume, life_processReqDataLoop, popped]
    exact .deliver _ top
  | drain r' data tmp =>
    cases about
    rw [resume, life_processReqDataLoop, freed, popped]
    exact .drain data tmp _ top
  | setReqStatus r' ret =>
    cases about
    rw [resume, life_setReqStatus, popped]
    exact .setStatus ret _ top
  | processStatus r' id buf =>
    cases about
    rw [resume, life_processStatus, popped]
    exact .process id buf _ top _ _
  | notifyStatus r' =>
    cases about
    rw [resume, life_notifyStatusEnd, popped]
    exact .notifyEnd _ top
  | waitLoop r' cb timed => cases about; exact lives_waitLoop env top popped
  | waitPolled r' cb timed => cases about; exact lives_waitPolled top popped
  | waitEnd r' cb lost =>
    cases about
    have flagged : ∀ cancelPoll, life r { s with stack := rest, cancelPoll } =
        life r { s with stack := rest } := fun _ => rfl
    rw [resume, life_waitEnd, flagged, popped]
    exact .waitEnd cb lost _ top
  | waitCompleted r' cb status => cases about; exact lives_waitCompleted top popped
  | waitReturn r' cb status =>
    cases about
    have returned : ∀ ret, life r { s with stack := rest, ret } = life r { s with stack := rest } :=
      fun _ => rfl
    rw [resume, life_log rfl, returned, popped]
    exact .waitReturn cb status _ top
  | _ => cases about

theorem lives_work (permits : Permits ok may r) (work : Work lib ok r s s') (old : s.brk ≠ r) :
    life r s' = life r s ∨ Lives lib may r (life r s) (life r s') := by
  cases work with
  | start here => exact absurd here old
  | link allowed after =>
    rw [after, life_link]
    exact .inr (.link (permits.link s allowed))
  | wait timed allowed after =>
    rw [after, life_wait]
    exact .inr (.wait (permits.wait s timed allowed) timed)
  | abort allowed after =>
    rw [after, life_abort]
    exact .inr (.abort (permits.abort s allowed))
  | ret cb rest top about value after =>
    obtain ⟨top, -⟩ := life_pop top about
    rw [after]
    exact .inr (.ret cb _ top)
  | flush rest top linked after =>
    rw [after, life_push rfl, life_skip rfl, life_drop top rfl]
    exact .inr (.flush (decide_eq_true linked))
  | frame env frame rest top about inside after =>
    rw [after]
    exact .inr (lives_frame env top about inside)
  | status buf fd rest top id found credited =>
    obtain ⟨linked, hit⟩ := findRequest_linked found
    cases credited with
    | fd sock set after =>
      have handed : ∀ t : State, life r (t.log (.handed sock)) = life r t := fun _ => rfl
      rw [after, life_call rfl, handed, life_push rfl, life_drop top rfl]
      exact .inr (.fd linked _ _ id hit set buf sock)
    | status before neutral header message after =>
      rw [after, life_processStatus, life_neutral neutral, life_drop top rfl, header]
      exact .inr (.status linked _ _ id hit _)
  | data env buf fd rest top id found wanted after =>
    obtain ⟨linked, -⟩ := findRequest_linked found
    have skipped : life r ({ s with stack := rest }.push (.closeFd fd)) = life r s := by
      rw [life_skip rfl, life_drop top rfl]
    rw [after]
    rcases life_processReqData (r := r) (s := ({ s with stack := rest }.push (.closeFd fd) : State)) env
      buf with same | ⟨type, data, content, ⟨free, first⟩ | ⟨busy, more⟩⟩
    · exact .inl (same.trans skipped)
    · rw [first, skipped]
      exact .inr (.data linked free type data content)
    · rw [more, skipped]
      exact .inr (.queue linked busy type data content)

/-- **A step leaves the life of a started request as it is or is one of its moves.** -/
theorem life_step (permits : Permits ok may r) (next : StepWhen lib ok s s') (started : r < s.brk) :
    r < s'.brk ∧ (life r s' = life r s ∨ Lives lib may r (life r s) (life r s')) := by
  refine ⟨started.trans_le (step_advance next).brk, ?_⟩
  rcases step_single next r with aside | work
  · exact .inl (life_aside aside)
  · exact lives_work permits work started.ne'

theorem life_run (permits : Permits ok may r) (kept : ∀ v v', Lives lib may r v v' → P v → P v')
    (started : r < s.brk) (holds : P (life r s))
    (path : Relation.ReflTransGen (StepWhen lib ok) s t) : r < t.brk ∧ P (life r t) := by
  induction path with
  | refl => exact ⟨started, holds⟩
  | tail _ next ih =>
    obtain ⟨old, holds⟩ := ih
    obtain ⟨old, same | move⟩ := life_step permits next old
    · exact ⟨old, same ▸ holds⟩
    · exact ⟨old, kept _ _ move holds⟩

end Moves

/-! ### Runs -/

/-- A run in which the application does only what `ok` allows. -/
def ReachableWhen (lib : Libubox) (ok : State → Action → Prop) (s : State) : Prop :=
  ∃ channel setup, Relation.ReflTransGen (StepWhen lib ok) (init channel setup) s

/-- A structure that no start has filled in, or a started request. -/
inductive Born : Life → Prop where
  | blank : Born ⟨false, {}, [], []⟩
  | started (req : Request) (fresh : Fresh req) (peer : UInt32) (seq : UInt16) :
    Born ⟨false, { req with peer, seq }, [], []⟩

def Lived (lib : Libubox) (may : Life → Handling → Prop) (r : Nat) (v : Life) : Prop :=
  ∃ v₀, Born v₀ ∧ Relation.ReflTransGen (Lives lib may r) v₀ v

theorem Lived.invariant {may : Life → Handling → Prop} {r : Nat} (born : ∀ v, Born v → P v)
    (kept : ∀ v v', Lives lib may r v v' → P v → P v') (lived : Lived lib may r v) : P v := by
  obtain ⟨v₀, start, path⟩ := lived
  induction path with
  | refl => exact born v₀ start
  | tail _ move ih => exact kept _ _ move ih

theorem work_old {may : Life → Handling → Prop} {r : Nat} {s : State}
    (work : Work lib (Handled may) r s s') (blank : life r s = ⟨false, {}, [], []⟩)
    (new : s.brk ≤ r) : s.brk = r ∧ Born (life r s') ∧ r < s'.brk := by
  have unlinked : (life r s).linked ≠ true := by
    rw [blank]
    exact Bool.false_ne_true
  have idle : ∀ {frame rest}, s.stack = frame :: rest → frame.req ≠ some r := by
    intro frame rest top about
    obtain ⟨frames, -⟩ := life_pop top about
    rw [blank] at frames
    cases frames
  cases work with
  | start here req fresh peer neutral =>
    refine ⟨here, ?_, Nat.lt_of_lt_of_le (Nat.lt_succ_of_le here.ge) neutral.choose_spec.brk⟩
    rw [life_neutral neutral]
    have fields := Life.mk.inj blank
    simp only [life]
    rw [fields.1, fields.2.2.1, fields.2.2.2, Function.update_self]
    exact .started req fresh peer _
  | link allowed after => exact absurd allowed.1 new.not_gt
  | wait timed allowed after => exact absurd allowed.1 new.not_gt
  | abort allowed after => exact absurd allowed.1 new.not_gt
  | ret cb rest top about => exact absurd about (idle top)
  | flush rest top linked => exact absurd (decide_eq_true linked) unlinked
  | frame env frame rest top about => exact absurd about (idle top)
  | status buf fd rest top id found => exact absurd (findRequest_linked found).1 unlinked
  | data env buf fd rest top id found => exact absurd (findRequest_linked found).1 unlinked

/-- **Every request of every run lives.** -/
theorem ReachableWhen.lived {may : Life → Handling → Prop} {s : State}
    (reachable : ReachableWhen lib (Handled may) s) (r : Nat) : Lived lib may r (life r s) := by
  obtain ⟨channel, setup, path⟩ := reachable
  suffices both : (s.brk ≤ r → life r s = ⟨false, {}, [], []⟩) ∧ Lived lib may r (life r s) from both.2
  induction path with
  | refl => exact ⟨fun _ => rfl, ⟨_, .blank, .refl⟩⟩
  | @tail s s' _ next ih =>
    obtain ⟨blank, lived⟩ := ih
    have brk : s.brk ≤ s'.brk := (step_advance next).brk
    rcases step_single next r with aside | work
    · rw [life_aside aside]
      exact ⟨fun new => blank (aside.brk.trans new), lived⟩
    by_cases new : s.brk ≤ r
    · obtain ⟨-, born, above⟩ := work_old work (blank new) new
      exact ⟨fun still => absurd above still.not_gt, ⟨_, born, .refl⟩⟩
    refine ⟨fun still => absurd (brk.trans still) new, ?_⟩
    rcases lives_work (handled_permits may r) work (fun here => new here.le) with same | move
    · rwa [same]
    · obtain ⟨v₀, born, path⟩ := lived
      exact ⟨v₀, born, path.tail move⟩

end Ubus.Libubus
