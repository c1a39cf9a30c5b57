/-
**Who owns the buffers.**

A block that holds a message is in use at one place: it is the receive buffer, it is held by a frame
that frees it or gives it back, or it is the copy in an entry of `ctx->pending` or of the list of a
request. It is freed by its owner only, so it is live as long as it has one.

* `Opens`, `Op`, `Storage.ops`: what a step does to the blocks, one thing after the other.
* `Touched`, `Storage.block`: what a step can do to a block that exists.
-/

import Ubus.Lib.Ownership
import Ubus.Libubus.Memory

namespace Ubus.Libubus

variable {lib : Libubox}
variable {t : State} {frame : Frame} {env : Env} {len : Nat} {ok : Bool} {action : Action}
  {rest : List Frame} {hdr : Msghdr} {frames : Frame → Prop} {attrbuf : UbusAttr → Option Ptr}
  {data : Bytes} {fd : Option Nat}

/-! ### Owners -/

inductive Owner where
  | msgbuf
  | stack
  | pending
  | request (r : Nat)
deriving DecidableEq

def State.owns (s : State) : Owner → List Nat
  | .msgbuf => s.msgbufData.toList
  | .stack => s.stack.filterMap Frame.owns
  | .pending => s.pending.map Prod.snd
  | .request r => (s.req r).pending.map Prod.snd

theorem mem_msgbuf {s : State} {b : Nat} (attached : s.msgbufData = some b) : b ∈ s.owns .msgbuf := by
  rw [State.owns, attached]
  exact List.mem_singleton_self b

theorem mem_stack {s : State} {b : Nat} (below : b ∈ s.stack.tail.filterMap Frame.owns) :
    b ∈ s.owns .stack :=
  ((List.tail_sublist s.stack).filterMap Frame.owns).subset below

/-- **Every block in use has one owner and is live.** -/
structure Owned (s : State) : Prop where
  separate : Lib.Separate s.owns
  live : ∀ {owner : Owner} {b : Nat}, b ∈ s.owns owner → (s.buf b).live = true
  below : ∀ {owner : Owner} {b : Nat}, b ∈ s.owns owner → b < s.brk

namespace Owned

variable {s s' : State}

theorem shrink (owned : Owned s) (sub : ∀ owner, (s'.owns owner).Subperm (s.owns owner))
    (live : ∀ {owner : Owner} {b : Nat}, b ∈ s'.owns owner → (s'.buf b).live = (s.buf b).live)
    (brk : s.brk ≤ s'.brk) : Owned s' where
  separate := owned.separate.mono sub
  live mem := (live mem).trans (owned.live ((sub _).subset mem))
  below mem := (owned.below ((sub _).subset mem)).trans_le brk

theorem grant (owned : Owned s) (owner : Owner)
    (here : (s'.owns owner).Perm (s.brk :: s.owns owner))
    (others : ∀ other, other ≠ owner → s'.owns other = s.owns other)
    (new : (s'.buf s.brk).live = true)
    (live : ∀ b, b < s.brk → (s'.buf b).live = (s.buf b).live) (brk : s'.brk = s.brk + 1) :
    Owned s' := by
  have fresh : ∀ owner, s.brk ∉ s.owns owner := fun _ mem => (owned.below mem).false
  have back : ∀ {other : Owner} {b : Nat}, b ∈ s'.owns other → b = s.brk ∨ b ∈ s.owns other := by
    intro other b mem
    by_cases same : other = owner
    · subst same
      exact List.mem_cons.mp (here.mem_iff.mp mem)
    · exact .inr (others other same ▸ mem)
  refine ⟨owned.separate.give fresh here others, fun mem => ?_, fun mem => ?_⟩
  · rcases back mem with rfl | old
    · exact new
    · rw [live _ (owned.below old), owned.live old]
  · rw [brk]
    rcases back mem with rfl | old
    · exact Nat.lt_succ_self _
    · exact Nat.lt_succ_of_lt (owned.below old)

theorem transfer (owned : Owned s) (b : Nat) (source target : Owner) (differ : source ≠ target)
    (gone : (s.owns source).Perm (b :: s'.owns source))
    (here : (s'.owns target).Perm (b :: s.owns target))
    (others : ∀ other, other ≠ source → other ≠ target → s'.owns other = s.owns other)
    (buf : s'.buf = s.buf) (brk : s'.brk = s.brk) : Owned s' := by
  have back : ∀ {other : Owner} {c : Nat}, c ∈ s'.owns other → ∃ owner, c ∈ s.owns owner := by
    intro other c mem
    by_cases atSource : other = source
    · subst atSource
      exact ⟨other, gone.mem_iff.mpr (List.mem_cons_of_mem _ mem)⟩
    by_cases atTarget : other = target
    · subst atTarget
      rcases List.mem_cons.mp (here.mem_iff.mp mem) with rfl | old
      · exact ⟨source, gone.mem_iff.mpr List.mem_cons_self⟩
      · exact ⟨other, old⟩
    · exact ⟨other, others other atSource atTarget ▸ mem⟩
  refine ⟨owned.separate.move differ gone here others, fun mem => ?_, fun mem => ?_⟩
  · obtain ⟨owner, old⟩ := back mem
    rw [buf, owned.live old]
  · obtain ⟨owner, old⟩ := back mem
    rw [brk]
    exact owned.below old

theorem pop (owned : Owned s) (top : s.stack = frame :: rest) : Owned { s with stack := rest } := by
  refine owned.shrink (fun owner => ?_) (fun _ => rfl) le_rfl
  cases owner with
  | stack =>
    have sublist : (rest.filterMap Frame.owns).Sublist (s.stack.filterMap Frame.owns) := by
      rw [top]
      exact (List.sublist_cons_self ..).filterMap _
    exact sublist.subperm
  | _ => exact List.Subperm.refl _

theorem unowned (owned : Owned s) (top : s.stack = frame :: rest) {b : Nat}
    (owns : frame.owns = some b) (owner : Owner) :
    b ∉ ({ s with stack := rest } : State).owns owner := by
  have here : (s.owns .stack).Perm (b :: ({ s with stack := rest } : State).owns .stack) := by
    have equal : s.owns .stack = b :: rest.filterMap Frame.owns := by
      rw [State.owns, top, List.filterMap_cons_some owns]
    rw [equal]
    exact List.Perm.refl _
  refine (owned.separate.drop here fun other differs => ?_).2 owner
  cases other with
  | stack => exact absurd rfl differs
  | _ => rfl

theorem free (owned : Owned s) {b : Nat} (unowned : ∀ owner, b ∉ s.owns owner) :
    Owned (s.free b) := by
  refine owned.shrink (fun owner => ?_) (fun {owner other} mem => ?_) le_rfl
  · cases owner <;> exact List.Subperm.refl _
  have differs : other ≠ b := by
    rintro rfl
    refine unowned owner ?_
    cases owner <;> exact mem
  simp only [State.free, State.mapBuf, Function.update_of_ne differs]

theorem steady (owned : Owned s) (steady : Steady (·.owns = none) s s') : Owned s' := by
  obtain ⟨new, stack, none⟩ := steady.moved
  have buf : s'.buf = s.buf := congrArg Memory.buf steady.memory
  refine owned.shrink (fun owner => ?_) (fun _ => by rw [buf]) steady.brk
  cases owner with
  | msgbuf =>
    have data : s'.msgbufData = s.msgbufData := congrArg Memory.msgbufData steady.memory
    rw [State.owns, State.owns, data]
  | stack =>
    have empty : new.filterMap Frame.owns = [] := List.filterMap_eq_nil_iff.mpr none
    rw [State.owns, State.owns, stack, List.filterMap_append, empty, List.nil_append]
  | pending =>
    have pending : s'.pending = s.pending := congrArg Memory.pending steady.memory
    rw [State.owns, State.owns, pending]
  | request r =>
    rw [State.owns, State.owns]
    rcases steady.queue r with same | ⟨-, empty⟩
    · rw [same]
    · rw [empty]
      exact List.nil_subperm

end Owned

/-! ### Frames of the steps -/

theorem Light.owns {buf : Nat → Buffer} {allowed : Nat → Prop} (light : Light buf allowed frame) :
    frame.owns = none :=
  (Frame.plain_spec light.1).1

theorem Handler.owns (handler : Handler attrbuf frame) : frame.owns = none :=
  (Frame.plain_spec handler.1).1

theorem Hands.owns (hands : Hands attrbuf frame) : frame.owns = none :=
  hands.1

/-! ### Reading -/

theorem le_chunked (len : Nat) : len ≤ chunked len := by
  unfold chunked ubusMsgChunkSize
  omega

theorem Allocated.some {s : State} (allocated : Allocated len s true t) (enough : 4 ≤ len) :
    t.msgbufData ≠ none := by
  cases allocated with
  | fits counter room =>
    intro empty
    have empty : s.msgbufData = none := empty
    have small : len ≤ 0 := by
      rw [empty] at room
      exact (le_chunked len).trans room
    exact absurd (enough.trans small) (by decide)
  | moved counter => exact Option.some_ne_none _

/-! ### Every step keeps the owners -/

namespace Owned

variable {s : State}

theorem counted (owned : Owned s) (counter : Nat) :
    Owned { s with msgbufReductionCounter := counter } := by
  refine owned.shrink (fun owner => ?_) (fun _ => rfl) le_rfl
  cases owner <;> exact List.Subperm.refl _

theorem detach (owned : Owned s) : Owned { s with msgbufData := none } := by
  refine owned.shrink (fun owner => ?_) (fun _ => rfl) le_rfl
  cases owner with
  | msgbuf => exact List.nil_subperm
  | _ => exact List.Subperm.refl _

theorem unattached (owned : Owned s) {b : Nat} (attached : s.msgbufData = some b) (owner : Owner) :
    b ∉ ({ s with msgbufData := none } : State).owns owner := by
  have here : (s.owns .msgbuf).Perm (b :: ({ s with msgbufData := none } : State).owns .msgbuf) := by
    rw [State.owns, attached]
    exact List.Perm.refl _
  refine (owned.separate.drop here fun other differs => ?_).2 owner
  cases other with
  | msgbuf => exact absurd rfl differs
  | _ => rfl

theorem attach (owned : Owned s) (empty : s.msgbufData = none) (len : Nat) :
    Owned { s with
      buf := Function.update s.buf s.brk { cap := len, live := true }
      brk := s.brk + 1
      msgbufData := some s.brk
      msgbufDataLen := len } := by
  have before : s.owns .msgbuf = [] := by rw [State.owns, empty, Option.toList_none]
  refine owned.grant .msgbuf ?_ (fun other differs => ?_) ?_ (fun b old => ?_) rfl
  · rw [before]
    exact List.Perm.refl _
  · cases other with
    | msgbuf => exact absurd rfl differs
    | _ => rfl
  · simp only [Function.update_self]
  · simp only [Function.update_of_ne old.ne]

theorem realloc (owned : Owned s) (len : Nat) : Owned (s.realloc len) := by
  unfold State.realloc
  rcases attached : s.msgbufData with _ | b
  · exact owned.attach attached len
  · have freed : Owned ({ s with msgbufData := none }.free b) :=
      owned.detach.free (owned.unattached attached)
    exact freed.attach rfl len

theorem allocated (owned : Owned s) (allocated : Allocated len s ok t) : Owned t := by
  cases allocated with
  | fits counter room => exact owned.counted counter
  | moved counter => exact (owned.counted counter).realloc _
  | failed counter => exact owned.counted counter

theorem fill (owned : Owned s) (hdr : Msghdr) (data : Bytes) : Owned (s.fill hdr data) := by
  unfold State.fill
  split
  · refine owned.shrink (fun owner => ?_) (fun _ => rfl) le_rfl
    cases owner <;> exact List.Subperm.refl _
  rename_i b attached
  refine owned.shrink (fun owner => ?_) (fun {_ other} _ => ?_) le_rfl
  · cases owner <;> exact List.Subperm.refl _
  by_cases same : other = b
  · subst same
    simp only [State.mapBuf, Function.update_self]
  · simp only [State.mapBuf, Function.update_of_ne same]

theorem queueMsg (owned : Owned s) (env : Env) (buf : MsghdrBuf) : Owned (ubusQueueMsg env buf s) := by
  unfold ubusQueueMsg
  split
  · refine owned.grant .pending ?_ (fun other differs => ?_) ?_ (fun b old => ?_) rfl
    · simp only [State.owns, List.map_append, List.map_cons, List.map_nil]
      exact List.perm_append_singleton _ _
    · cases other with
      | pending => exact absurd rfl differs
      | _ => rfl
    · simp only [State.copy, Function.update_self]
    · simp only [State.copy, Function.update_of_ne old.ne]
  · exact owned

theorem queueData (owned : Owned s) (bytes : Bytes) (r : Nat) (type : UInt8) :
    Owned ((s.copy bytes).mapReq r fun req => { req with pending := (type, s.brk) :: req.pending }) := by
  refine owned.grant (.request r) ?_ (fun other differs => ?_) ?_ (fun b old => ?_) rfl
  · simp only [State.owns, State.mapReq, State.copy, Function.update_self, List.map_cons]
    exact List.Perm.refl _
  · cases other with
    | request other =>
      have apart : other ≠ r := fun same => differs (same ▸ rfl)
      simp only [State.owns, State.mapReq, State.copy, Function.update_of_ne apart]
    | _ => rfl
  · simp only [State.mapReq, State.copy, Function.update_self]
  · simp only [State.mapReq, State.copy, Function.update_of_ne old.ne]

theorem take (owned : Owned s) {data : Nat} {others : List (Msghdr × Nat)}
    (queued : s.pending = (hdr, data) :: others) :
    Owned (({ s with pending := others } : State).push (.pendingDone data)) := by
  refine owned.transfer data .pending .stack (by decide) ?_ (List.Perm.refl _)
    (fun other first second => ?_) rfl rfl
  · rw [State.owns, queued]
    exact List.Perm.refl _
  cases other with
  | pending => exact absurd rfl first
  | stack => exact absurd rfl second
  | _ => rfl

theorem detachData (owned : Owned s) (buf : MsghdrBuf) : Owned (detachData buf s) := by
  unfold Libubus.detachData
  split
  · rename_i prevData attached
    refine owned.transfer prevData .msgbuf .stack (by decide) ?_ (List.Perm.refl _)
      (fun other first second => ?_) rfl rfl
    · rw [State.owns, attached]
      exact List.Perm.refl _
    cases other with
    | msgbuf => exact absurd rfl first
    | stack => exact absurd rfl second
    | _ => rfl
  · exact owned

theorem restore (owned : Owned s) {prevData : Nat} (top : s.stack = .restoreData prevData :: rest) :
    Owned (restoreData prevData { s with stack := rest }) := by
  unfold restoreData
  split
  · exact (owned.pop top).free (owned.unowned top rfl)
  rename_i empty
  have empty : s.msgbufData = none := empty
  refine owned.transfer prevData .stack .msgbuf (by decide) ?_ ?_ (fun other first second => ?_) rfl
    rfl
  · rw [State.owns, top]
    exact List.Perm.refl _
  · simp only [State.owns, empty]
    exact List.Perm.refl _
  cases other with
  | msgbuf => exact absurd rfl second
  | stack => exact absurd rfl first
  | _ => rfl

theorem fetch (owned : Owned s) {r data : Nat} {type : UInt8} (tmp : Option Nat)
    (listed : (type, data) ∈ (s.req r).pending) :
    Owned ((s.mapReq r fun req =>
      { req with pending := req.pending.filter fun entry => entry.2 ≠ data }).push (.drain r data tmp)) := by
  have nodup : ((s.req r).pending.map Prod.snd).Nodup := owned.separate.nodup (.request r)
  have mem : data ∈ (s.req r).pending.map Prod.snd := List.mem_map.mpr ⟨_, listed, rfl⟩
  have others : ((s.req r).pending.filter fun entry => entry.2 ≠ data).map Prod.snd =
      ((s.req r).pending.map Prod.snd).erase data := by
    rw [nodup.erase_eq_filter, List.filter_map]
    congr 1
    refine List.filter_congr fun entry _ => ?_
    by_cases same : entry.2 = data
    · simp [same]
    · simp [same, bne]
  refine owned.transfer data (.request r) .stack (fun same => Owner.noConfusion same) ?_
    (List.Perm.refl _) (fun other first second => ?_) rfl rfl
  · simp only [State.owns, State.push, State.mapReq, Function.update_self]
    rw [others]
    exact List.perm_cons_erase mem
  · cases other with
    | stack => exact absurd rfl second
    | request other =>
      have apart : other ≠ r := fun same => first (same ▸ rfl)
      simp only [State.owns, State.push, State.mapReq, Function.update_of_ne apart]
    | _ => rfl

theorem abort (owned : Owned s) (r : Nat) : Owned (ubusAbortRequest r s) := by
  unfold ubusAbortRequest
  split
  · exact owned
  rw [freeAll_eq]
  refine owned.shrink (fun owner => ?_) (fun {owner b} mem => ?_) le_rfl
  · cases owner with
    | request other =>
      by_cases same : other = r
      · subst same
        simp only [State.owns, State.mapReq, Function.update_self]
        exact List.nil_subperm
      · simp only [State.owns, State.mapReq, Function.update_of_ne same]
        exact List.Subperm.refl _
    | _ => exact List.Subperm.refl _
  · have kept : b ∈ s.owns owner ∧ owner ≠ .request r := by
      cases owner with
      | request other =>
        by_cases same : other = r
        · subst same
          simp only [State.owns, State.mapReq, Function.update_self] at mem
          cases mem
        · simp only [State.owns, State.mapReq, Function.update_of_ne same] at mem
          exact ⟨mem, fun equal => same (Owner.request.inj equal)⟩
      | _ => exact ⟨mem, fun equal => Owner.noConfusion equal⟩
    have other : b ∉ s.owns (.request r) := fun listed =>
      kept.2 (owned.separate.unique kept.1 listed)
    rw [State.owns] at other
    simp only [State.mapReq, if_neg other]

end Owned

/-! ### One thing after the other -/

/-- A buffer that was detached is kept by its frame. -/
def Frame.saved : Frame → Option Nat
  | .restoreData prevData => some prevData
  | _ => none

/-- What a step does first: a frame leaves the stack, with its block or without one, the list of a
request is freed, or a message is read. -/
inductive Opens (s : State) : State → Prop where
  | stay : Opens s s
  | pop (frame : Frame) (rest : List Frame) (top : s.stack = frame :: rest) (free : frame.owns = none) :
    Opens s { s with stack := rest }
  | release (frame : Frame) (rest : List Frame) (b : Nat) (top : s.stack = frame :: rest)
    (owns : frame.owns = some b) (other : frame.saved = none) :
    Opens s (State.free b { s with stack := rest })
  | restore (prevData : Nat) (rest : List Frame) (top : s.stack = .restoreData prevData :: rest) :
    Opens s (restoreData prevData { s with stack := rest })
  | abort (r : Nat) : Opens s (ubusAbortRequest r s)
  | receive (rest : List Frame) (top : s.stack = .handleRead :: rest) {len : Nat} {u : State}
    (allocated : Allocated len { s with stack := rest } true u) (hdr : Msghdr) (data : Bytes) :
    Opens s (u.fill hdr data)

/-- What it does then: blocks are copied and change their owners. `detaches` says whether the receive
buffer may be given up. -/
inductive Op (detaches : Prop) (s : State) : State → Prop where
  | steady {t : State} (steady : Steady (·.owns = none) s t) : Op detaches s t
  | queueMsg (env : Env) (buf : MsghdrBuf) : Op detaches s (ubusQueueMsg env buf s)
  | queueData (bytes : Bytes) (r : Nat) (type : UInt8) :
    Op detaches s ((s.copy bytes).mapReq r fun req =>
      { req with pending := (type, s.brk) :: req.pending })
  | take {hdr : Msghdr} {data : Nat} {others : List (Msghdr × Nat)}
    (queued : s.pending = (hdr, data) :: others) :
    Op detaches s (State.push (.pendingDone data) { s with pending := others })
  | detach (allowed : detaches) (buf : MsghdrBuf) : Op detaches s (detachData buf s)
  | fetch {r data : Nat} {type : UInt8} (tmp : Option Nat) (listed : (type, data) ∈ (s.req r).pending) :
    Op detaches s ((s.mapReq r fun req =>
      { req with pending := req.pending.filter fun entry => entry.2 ≠ data }).push (.drain r data tmp))

section

variable {detaches : Prop} {s s' : State}

theorem ops_loop (r : Nat) (entry : Option Nat) (s : State) :
    Relation.ReflTransGen (Op detaches) s (processReqDataLoop r entry s) := by
  have ends : Steady (Light s.buf fun _ => False) s (processReqDataEnd r s) :=
    steady_processReqDataEnd (usual_light _ _) r s
  unfold processReqDataLoop
  split
  · exact .single (.steady (ends.mono fun _ => Light.owns))
  split
  · exact .single (.steady (.of_eq rfl rfl le_rfl rfl))
  rename_i data _ type other found
  have same : other = data := by simpa using List.find?_some found
  have taken : Op detaches s _ :=
    .fetch (nextEntry data (s.req r).pending) (same ▸ List.mem_of_find?_eq_some found)
  dsimp only
  split
  · exact .single taken
  · exact .tail (.single taken) (.steady ((Steady.refl _).push rfl))

/-- **A step, one thing after the other.** -/
theorem Storage.ops (storage : Storage lib env action s s') : ∃ t, Opens s t ∧
    Relation.ReflTransGen (Op (∃ buf fd rest, s.stack = .processMsg buf fd :: rest)) t s' := by
  have stopped : ∀ {t u : State}, Steady (·.owns = none) t u →
      Op (∃ buf fd rest, s.stack = .processMsg buf fd :: rest) t
        (pendingTimer ((u.close env.recv.fd).push .handleEnd)) := fun before =>
    .steady (before.trans ((steady_stopped (usual_light s.buf fun _ => False) ..).mono fun _ => Light.owns))
  have entry : ∀ (buf : MsghdrBuf) (t : State), Steady (·.owns = none) t (entered lib buf t) := fun buf t =>
    (steady_entered (usual_light t.buf fun _ => False) buf t).mono fun _ => Light.owns
  cases storage with
  | ret idle value after =>
    subst after
    rcases stack : s.stack with _ | ⟨frame, rest⟩
    · exact ⟨s, .stay, .single (.steady (.of_eq rfl rfl le_rfl stack.symm))⟩
    have free : frame.owns = none := by
      rw [State.idle, stack] at idle
      cases frame with
      | app cb => rfl
      | _ => cases idle
    exact ⟨_, .pop frame rest stack free, .single (.steady (.of_eq rfl rfl le_rfl rfl))⟩
  | act idle steady => exact ⟨s, .stay, .single (.steady (steady.mono fun _ => Light.owns))⟩
  | call idle reading steady =>
    exact ⟨s, .stay, .single (.steady (steady.mono fun _ reads => (Frame.reads_spec reads).1))⟩
  | abort idle r after => exact ⟨_, .abort r, after ▸ .refl⟩
  | work frame rest top free steady =>
    exact ⟨_, .pop frame rest top free, .single (.steady (steady.mono fun _ => Light.owns))⟩
  | loop frame rest top reads steady =>
    refine ⟨_, .pop frame rest top (Frame.reads_spec reads).1, .single (.steady (steady.mono ?_))⟩
    exact fun new kind => kind.elim (fun reads => (Frame.reads_spec reads).1) Light.owns
  | read rest top reads =>
    cases reads with
    | message hdr data enough length allocated =>
      refine ⟨_, .receive rest top allocated hdr data, .single (.steady ?_)⟩
      exact Steady.push (Steady.push (Steady.refl _).log (by exact rfl)) (by exact rfl)
    | part hdr data allocated =>
      exact ⟨_, .receive rest top allocated hdr data, .single (stopped (.of_eq rfl rfl le_rfl rfl))⟩
    | nothing eof counter =>
      exact ⟨_, .pop _ rest top rfl, .single (stopped (.of_eq rfl rfl le_rfl rfl))⟩
  | hook obj method k noReply rest top steady =>
    exact ⟨_, .pop _ rest top rfl, .single (.steady (steady.mono fun _ => Handler.owns))⟩
  | take rest top hdr data others queued after =>
    subst after
    have taken : Op (∃ buf fd rest, s.stack = .processMsg buf fd :: rest) { s with stack := rest } _ :=
      .take queued
    exact ⟨_, .pop _ rest top rfl, .tail (.single taken) (.steady ((Steady.refl _).push rfl))⟩
  | done data rest top after =>
    subst after
    exact ⟨_, .release _ rest data top rfl rfl, .single (.steady ((Steady.refl _).push rfl))⟩
  | restore prevData rest top after => exact ⟨_, .restore prevData rest top, after ▸ .refl⟩
  | drain r rest top after => exact ⟨_, .pop _ rest top rfl, after ▸ ops_loop ..⟩
  | drained r data tmp rest top after =>
    exact ⟨_, .release _ rest data top rfl rfl, after ▸ ops_loop ..⟩
  | data buf fd rest top r data holds after =>
    subst after
    have pushed : Steady (·.owns = none) { s with stack := rest }
        ({ s with stack := .closeFd fd :: rest }.log (.gotData r (s.hdr buf).type (s.buf data).content)) :=
      Steady.log (Steady.push (Steady.refl { s with stack := rest }) (by exact rfl))
    exact ⟨_, .pop _ rest top rfl, .tail (.single (.steady pushed)) (.queueData ..)⟩
  | queue buf fd rest top after =>
    subst after
    exact ⟨_, .pop _ rest top rfl,
      .tail (.single (.queueMsg env buf)) (.steady ((Steady.refl _).close fd))⟩
  | dispatch buf fd rest top steady =>
    exact ⟨_, .pop _ rest top rfl, .tail (.tail (.single (.steady (entry buf _)))
      (.detach ⟨buf, fd, rest, top⟩ buf)) (.steady (steady.mono fun _ => Handler.owns))⟩
  | ask buf fd rest top asked =>
    exact ⟨_, .pop _ rest top rfl, .tail (.tail (.single (.steady (entry buf _)))
      (.detach ⟨buf, fd, rest, top⟩ buf)) (.steady (asked.steady.mono fun _ => Hands.owns))⟩

theorem Opens.owned (opens : Opens s t) (owned : Owned s) : Owned t := by
  cases opens with
  | stay => exact owned
  | pop frame rest top free => exact owned.pop top
  | release frame rest b top owns other => exact (owned.pop top).free (owned.unowned top owns)
  | restore prevData rest top => exact owned.restore top
  | abort r => exact owned.abort r
  | receive rest top allocated hdr data => exact ((owned.pop top).allocated allocated).fill hdr data

theorem Op.owned (op : Op detaches s t) (owned : Owned s) : Owned t := by
  cases op with
  | steady steady => exact owned.steady steady
  | queueMsg env buf => exact owned.queueMsg env buf
  | queueData bytes r type => exact owned.queueData bytes r type
  | take queued => exact owned.take queued
  | detach allowed buf => exact owned.detachData buf
  | fetch tmp listed => exact owned.fetch tmp listed

theorem ops_owned (path : Relation.ReflTransGen (Op detaches) s t) (owned : Owned s) : Owned t := by
  induction path with
  | refl => exact owned
  | tail _ op ih => exact op.owned ih

theorem Storage.owned (storage : Storage lib env action s s') (owned : Owned s) : Owned s' := by
  obtain ⟨t, opens, path⟩ := storage.ops
  exact ops_owned path (opens.owned owned)

end

theorem owned_init (channel : Bool) (setup : Setup) : Owned (init channel setup) := by
  refine ⟨⟨fun owner => ?_, ?_⟩, ?_, ?_⟩
  · cases owner <;> simp [State.owns, init]
  · intro owner owner' b mine other
    cases owner <;> cases owner' <;> simp_all [State.owns, init]
  · intro owner b mem
    cases owner <;> simp_all [State.owns, init]
  · intro owner b mem
    cases owner <;> simp_all [State.owns, init]

/-- **The buffers of a context have separate owners and are live.** -/
theorem Reachable.owned {s : State} (reachable : Reachable lib s) : Owned s := by
  obtain ⟨channel, setup, path⟩ := reachable
  induction path with
  | refl => exact owned_init channel setup
  | tail _ next ih =>
    obtain ⟨env, action, rfl⟩ := next
    exact (step_storage lib env action _).owned ih

/-! ### What a step does to a block -/

/-- The block is freed by the frame on top or with the list of a request, or the receive buffer is
filled or moved. -/
inductive Touched (s : State) (b : Nat) : Prop where
  | top (frame : Frame) (rest : List Frame) (top : s.stack = frame :: rest)
    (owns : frame.owns = some b)
  | request (r : Nat) (owns : b ∈ s.owns (.request r))
  | read (rest : List Frame) (top : s.stack = .handleRead :: rest) (attached : s.msgbufData = some b)

/-- The capacity stays, every filling has a number of its own, and the block stays as it is unless
something happens to it. -/
structure BlockKept (s s' : State) (b : Nat) (touched : Prop) : Prop where
  cap : (s'.buf b).cap = (s.buf b).cap
  gen : (s.buf b).gen ≤ (s'.buf b).gen
  content : (s'.buf b).gen = (s.buf b).gen → (s'.buf b).content = (s.buf b).content
  same : s'.buf b = s.buf b ∨ touched

namespace BlockKept

variable {s s' : State} {b : Nat} {touched : Prop}

theorem of_eq (same : s'.buf b = s.buf b) : BlockKept s s' b touched :=
  ⟨by rw [same], by rw [same], fun _ => by rw [same], .inl same⟩

theorem trans (first : BlockKept s t b touched) (second : BlockKept t s' b touched) :
    BlockKept s s' b touched := by
  refine ⟨second.cap.trans first.cap, first.gen.trans second.gen, fun same => ?_, ?_⟩
  · have early : (t.buf b).gen = (s.buf b).gen := le_antisymm (same ▸ second.gen) first.gen
    rw [second.content (same.trans early.symm), first.content early]
  rcases second.same with same | touched
  · rcases first.same with same' | touched
    · exact .inl (same.trans same')
    · exact .inr touched
  · exact .inr touched

theorem freed (same : s'.buf b = s.buf b ∨ s'.buf b = { s.buf b with live := false } ∧ touched) :
    BlockKept s s' b touched := by
  rcases same with same | ⟨same, reason⟩
  · exact of_eq same
  · exact ⟨by rw [same], by rw [same], fun _ => by rw [same], .inr reason⟩

theorem free (other : Nat) (reason : b = other → touched) : BlockKept s (s.free other) b touched := by
  refine freed ?_
  by_cases same : b = other
  · subst same
    exact .inr ⟨by simp only [State.free, State.mapBuf, Function.update_self], reason rfl⟩
  · exact .inl (by simp only [State.free, State.mapBuf, Function.update_of_ne same])

theorem realloc (len : Nat) (reason : s.msgbufData = some b → touched) (old : b < s.brk) :
    BlockKept s (s.realloc len) b touched := by
  have added : ∀ t : State, Function.update t.buf s.brk { cap := len, live := true } b = t.buf b :=
    fun t => Function.update_of_ne old.ne ..
  unfold State.realloc
  rcases attached : s.msgbufData with _ | other
  · exact of_eq (added s)
  · have freed : BlockKept s (s.free other) b touched := free other fun same => reason (same ▸ attached)
    exact freed.trans (of_eq (added (s.free other)))

theorem allocated (allocated : Allocated len s ok t) (reason : s.msgbufData = some b → touched)
    (old : b < s.brk) : BlockKept s t b touched := by
  cases allocated with
  | fits counter room => exact of_eq rfl
  | moved counter =>
    have counted : BlockKept s { s with msgbufReductionCounter := counter } b touched := of_eq rfl
    exact counted.trans (realloc _ reason old)
  | failed counter => exact of_eq rfl

theorem fill (hdr : Msghdr) (data : Bytes) (reason : s.msgbufData = some b → touched) :
    BlockKept s (s.fill hdr data) b touched := by
  unfold State.fill
  split
  · exact of_eq rfl
  rename_i other attached
  by_cases same : b = other
  · subst same
    refine ⟨?_, ?_, fun same => ?_, .inr (reason attached)⟩
    · simp only [State.mapBuf, Function.update_self]
    · simp only [State.mapBuf, Function.update_self, Nat.le_succ]
    · simp only [State.mapBuf, Function.update_self, Nat.succ_ne_self] at same
  · exact of_eq (by simp only [State.mapBuf, Function.update_of_ne same])

theorem received (allocated : Allocated len s true t) (reason : s.msgbufData = some b → touched)
    (old : b < s.brk) : BlockKept s (t.fill hdr data) b touched := by
  refine (BlockKept.allocated allocated reason old).trans (fill hdr data fun attached => reason ?_)
  cases allocated with
  | fits counter room => exact attached
  | moved counter => exact absurd (Option.some.inj attached) old.ne'

end BlockKept

section

variable {detaches : Prop} {s s' : State} {b : Nat}

theorem allocated_brk (allocated : Allocated len s ok t) (hdr : Msghdr) (data : Bytes) :
    s.brk ≤ (t.fill hdr data).brk := by
  have filled : (t.fill hdr data).brk = t.brk := by
    unfold State.fill
    split <;> rfl
  rw [filled]
  cases allocated with
  | moved counter => exact Nat.le_succ _
  | _ => exact le_rfl

theorem Opens.block (opens : Opens s t) (old : b < s.brk) :
    BlockKept s t b (Touched s b) ∧ s.brk ≤ t.brk := by
  have popped : ∀ {rest : List Frame} {t : State}, BlockKept { s with stack := rest } t b (Touched s b) →
      BlockKept s t b (Touched s b) := fun {rest} _ kept =>
    BlockKept.trans (.of_eq rfl : BlockKept s { s with stack := rest } b _) kept
  cases opens with
  | stay => exact ⟨.of_eq rfl, le_rfl⟩
  | pop frame rest top free => exact ⟨.of_eq rfl, le_rfl⟩
  | release frame rest c top owns other =>
    exact ⟨popped (.free c fun same => .top frame rest top (same ▸ owns)), le_rfl⟩
  | restore prevData rest top =>
    unfold restoreData
    split
    · exact ⟨popped (.free prevData fun same => .top _ rest top (same ▸ rfl)), le_rfl⟩
    · exact ⟨.of_eq rfl, le_rfl⟩
  | abort r =>
    unfold ubusAbortRequest
    split
    · exact ⟨.of_eq rfl, le_rfl⟩
    rw [freeAll_eq]
    refine ⟨.freed ?_, le_rfl⟩
    by_cases listed : b ∈ (s.req r).pending.map Prod.snd
    · exact .inr ⟨if_pos listed, .request r listed⟩
    · exact .inl (if_neg listed)
  | receive rest top allocated hdr data =>
    exact ⟨popped (.received allocated (fun attached => .read rest top attached) old),
      allocated_brk allocated hdr data⟩

theorem Op.block (op : Op detaches s t) (old : b < s.brk) : t.buf b = s.buf b ∧ s.brk ≤ t.brk := by
  cases op with
  | steady steady => exact ⟨congrFun (congrArg Memory.buf steady.memory) b, steady.brk⟩
  | queueMsg env buf =>
    unfold ubusQueueMsg
    split
    · exact ⟨by simp only [State.copy, Function.update_of_ne old.ne], Nat.le_succ _⟩
    · exact ⟨rfl, le_rfl⟩
  | queueData bytes r type =>
    exact ⟨by simp only [State.mapReq, State.copy, Function.update_of_ne old.ne], Nat.le_succ _⟩
  | take queued => exact ⟨rfl, le_rfl⟩
  | detach allowed buf =>
    unfold detachData
    split <;> exact ⟨rfl, le_rfl⟩
  | fetch tmp listed => exact ⟨rfl, le_rfl⟩

/-- **What a step can do to a block that exists.** -/
theorem Storage.block (storage : Storage lib env action s s') (old : b < s.brk) :
    BlockKept s s' b (Touched s b) := by
  obtain ⟨t, opens, path⟩ := storage.ops
  obtain ⟨kept, brk⟩ := opens.block old
  clear storage
  have same : s'.buf b = t.buf b ∧ t.brk ≤ s'.brk := by
    induction path with
    | refl => exact ⟨rfl, le_rfl⟩
    | tail _ op ih =>
      obtain ⟨buf, more⟩ := op.block ((old.trans_le brk).trans_le ih.2)
      exact ⟨buf.trans ih.1, ih.2.trans more⟩
  exact kept.trans (.of_eq same.1)

end

/-! ### What a step pushes -/

/-- The frames that a step pushes: a message that was read or taken from the queue is on top, and so is
the call of a hook. -/
inductive Pushed (lib : Libubox) (env : Env) (s s' : State) : List Frame → Prop where
  | inert (new : List Frame) (each : ∀ frame ∈ new, frame.inert = true) : Pushed lib env s s' new
  | read (rest : List Frame) (top : s.stack = .handleRead :: rest) (hdr : Msghdr) (data : Bytes)
    (enough : 4 ≤ Blob.rawLen data) (length : data.length = Blob.rawLen data) (u : State)
    (allocated : Allocated (Blob.rawLen data) { s with stack := rest } true u)
    (after : s' = (((u.fill hdr data).log (.read hdr data)).push .handled).push
      (.processMsg .msgbuf env.recv.fd)) :
    Pushed lib env s s' [.processMsg .msgbuf env.recv.fd, .handled]
  | take (hdr : Msghdr) (data : Nat) (rest : List Frame) (top : s.stack = .processPendingMsg :: rest) :
    Pushed lib env s s' [.processMsg (.pending hdr data) none, .pendingDone data]
  | ask (cb : Callback) (obj method k : Nat) (noReply : Bool) (new : List Frame)
    (each : ∀ frame ∈ new, frame.inert = true) (buf : MsghdrBuf) (fd : Option Nat) (rest : List Frame)
    (top : s.stack = .processMsg buf fd :: rest)
    (asked : Asked (detached lib buf { s with stack := rest }) s') :
    Pushed lib env s s' (.app cb :: .preInvoked obj method k noReply :: new)

/-- They are pushed on the stack of the application, or on what is left when control returns to the
frame on top. -/
def Base (s : State) (base : List Frame) : Prop :=
  (s.idle ∧ base = s.stack) ∨ ∃ frame, s.stack = frame :: base

theorem fill_attached (hdr : Msghdr) (data : Bytes) (u : State) :
    (u.fill hdr data).msgbufData = u.msgbufData ∧ (u.fill hdr data).stack = u.stack := by
  unfold State.fill
  split <;> exact ⟨rfl, rfl⟩

theorem allocated_stack {s u : State} (allocated : Allocated len s ok u) : u.stack = s.stack := by
  cases allocated with
  | fits counter room => rfl
  | moved counter =>
    unfold State.realloc
    split <;> rfl
  | failed counter => rfl

theorem Steady.stack_eq {s : State} (steady : Steady (fun _ => False) s t) : t.stack = s.stack := by
  obtain ⟨new, stack, none⟩ := steady.moved
  have empty : new = [] := List.eq_nil_iff_forall_not_mem.mpr none
  rw [stack, empty, List.nil_append]

theorem restoreData_stack (prevData : Nat) (s : State) : (restoreData prevData s).stack = s.stack := by
  unfold restoreData
  split <;> rfl

theorem queueMsg_stack (env : Env) (buf : MsghdrBuf) (s : State) :
    (ubusQueueMsg env buf s).stack = s.stack := by
  unfold ubusQueueMsg
  split <;> rfl

theorem close_stack (fd : Option Nat) (s : State) : (s.close fd).stack = s.stack := by
  cases fd <;> rfl

theorem close_attached (fd : Option Nat) (s : State) : (s.close fd).msgbufData = s.msgbufData := by
  cases fd <;> rfl

theorem queueMsg_attached (env : Env) (buf : MsghdrBuf) (s : State) :
    (ubusQueueMsg env buf s).msgbufData = s.msgbufData := by
  unfold ubusQueueMsg
  split <;> rfl

theorem entered_stack (buf : MsghdrBuf) (s : State) : (entered lib buf s).stack = .leaveObjMsg :: s.stack := by
  unfold entered
  cases s.data buf <;> rfl

theorem detached_stack (lib : Libubox) (buf : MsghdrBuf) (s : State) :
    ∃ new, (detached lib buf s).stack = new ++ s.stack ∧ ∀ frame ∈ new, frame.inert = true := by
  unfold detached detachData
  split
  · exact ⟨[.restoreData _, .leaveObjMsg], congrArg (_ :: ·) (entered_stack ..), by simp [Frame.inert]⟩
  · exact ⟨[.leaveObjMsg], entered_stack .., by simp [Frame.inert]⟩

theorem loop_stack (r : Nat) (entry : Option Nat) (s : State) :
    ∃ new, (processReqDataLoop r entry s).stack = new ++ s.stack ∧ ∀ frame ∈ new, frame.inert = true := by
  unfold processReqDataLoop
  split
  · have ends : Steady (Light s.buf fun _ => False) s (processReqDataEnd r s) :=
      steady_processReqDataEnd (usual_light _ _) r s
    obtain ⟨new, stack, admitted⟩ := ends.moved
    exact ⟨new, stack, fun frame mem => (Frame.plain_spec (admitted frame mem).1).2.2⟩
  split
  · exact ⟨[], rfl, List.forall_mem_nil _⟩
  rename_i data _ type _ _
  dsimp only
  split
  · exact ⟨[.drain r data _], rfl, by simp [Frame.inert]⟩
  · exact ⟨[.reqDataCb r type data, .drain r data _], rfl, by simp [Frame.inert]⟩

theorem Storage.pushed {s s' : State} (storage : Storage lib env action s s') :
    ∃ new base, s'.stack = new ++ base ∧ Base s base ∧ Pushed lib env s s' new := by
  have steadily : ∀ {frames : Frame → Prop} {t : State} {base : List Frame}, Steady frames t s' →
      (∀ frame, frames frame → frame.inert = true) → ∀ first, t.stack = first ++ base →
      (∀ frame ∈ first, frame.inert = true) → Base s base →
      ∃ new base, s'.stack = new ++ base ∧ Base s base ∧ Pushed lib env s s' new := by
    intro frames t base steady inert first stack each below
    obtain ⟨new, pushed, admitted⟩ := steady.moved
    refine ⟨new ++ first, base, ?_, below, .inert _ (List.forall_mem_append.mpr
      ⟨fun frame mem => inert frame (admitted frame mem), each⟩)⟩
    rw [pushed, stack, List.append_assoc]
  have light : ∀ {allowed : Nat → Prop} (frame : Frame), Light s.buf allowed frame → frame.inert = true :=
    fun _ light => (Frame.plain_spec light.1).2.2
  have plainly : ∀ (new : List Frame) {base : List Frame}, s'.stack = new ++ base → Base s base →
      (∀ frame ∈ new, frame.inert = true) →
      ∃ new base, s'.stack = new ++ base ∧ Base s base ∧ Pushed lib env s s' new :=
    fun new _ stack below each => ⟨new, _, stack, below, .inert new each⟩
  cases storage with
  | ret idle value after =>
    rcases stack : s.stack with _ | ⟨frame, rest⟩
    · exact plainly [] (by rw [after, stack]; rfl) (.inl ⟨idle, stack.symm⟩) (List.forall_mem_nil _)
    · exact plainly [] (by rw [after, stack]; rfl) (.inr ⟨frame, stack⟩) (List.forall_mem_nil _)
  | act idle steady => exact steadily steady light [] rfl (List.forall_mem_nil _) (.inl ⟨idle, rfl⟩)
  | call idle reading steady =>
    exact steadily steady (fun _ reads => (Frame.reads_spec reads).2.2) [] rfl (List.forall_mem_nil _) (.inl ⟨idle, rfl⟩)
  | abort idle r after =>
    exact plainly [] (after ▸ (abort_stack r s).1) (.inl ⟨idle, rfl⟩) (List.forall_mem_nil _)
  | work frame rest top free steady =>
    exact steadily steady light [] rfl (List.forall_mem_nil _) (.inr ⟨_, top⟩)
  | loop frame rest top reads steady =>
    refine steadily steady ?_ [] rfl (List.forall_mem_nil _) (.inr ⟨_, top⟩)
    rintro new (reads | plain)
    · exact (Frame.reads_spec reads).2.2
    · exact light new plain
  | read rest top reads =>
    have filled : ∀ {u : State} hdr data, Allocated (Blob.rawLen data) { s with stack := rest } true u →
        (u.fill hdr data).stack = rest := fun hdr data allocated =>
      (fill_attached hdr data _).2.trans (allocated_stack allocated)
    have stopped : ∀ t : State, Steady (Light s.buf fun _ => False) t
        (pendingTimer ((t.close env.recv.fd).push .handleEnd)) := fun t =>
      steady_stopped (usual_light _ _) ..
    cases reads with
    | message hdr data enough length allocated =>
      refine ⟨_, rest, ?_, .inr ⟨_, top⟩, .read rest top hdr data enough length _ allocated rfl⟩
      rw [← filled hdr data allocated]
      rfl
    | part hdr data allocated =>
      exact steadily (stopped _) light [] (filled hdr data allocated) (List.forall_mem_nil _)
        (.inr ⟨_, top⟩)
    | nothing eof counter =>
      exact steadily (stopped _) light [] rfl (List.forall_mem_nil _) (.inr ⟨_, top⟩)
  | hook obj method k noReply rest top steady =>
    exact steadily steady (fun _ handler => (Frame.plain_spec handler.1).2.2) [] rfl (List.forall_mem_nil _)
      (.inr ⟨_, top⟩)
  | take rest top hdr data others queued after =>
    exact ⟨[.processMsg (.pending hdr data) none, .pendingDone data], rest, by rw [after]; rfl,
      .inr ⟨_, top⟩, .take hdr data rest top⟩
  | done data rest top after =>
    exact plainly [.processPendingMsg] (by rw [after]; rfl) (.inr ⟨_, top⟩) (by simp [Frame.inert])
  | restore prevData rest top after =>
    exact plainly [] (by rw [after, restoreData_stack]; rfl) (.inr ⟨_, top⟩) (List.forall_mem_nil _)
  | drain r rest top after =>
    obtain ⟨new, stack, each⟩ := loop_stack r ((s.req r).pending.head?.map Prod.snd) { s with stack := rest }
    exact plainly new (by rw [after, stack]) (.inr ⟨_, top⟩) each
  | drained r data tmp rest top after =>
    obtain ⟨new, stack, each⟩ := loop_stack r tmp ({ s with stack := rest }.free data)
    exact plainly new (by rw [after, stack]; rfl) (.inr ⟨_, top⟩) each
  | data buf fd rest top r data holds after =>
    exact plainly [.closeFd fd] (by rw [after]; rfl) (.inr ⟨_, top⟩) (by simp [Frame.inert])
  | queue buf fd rest top after =>
    exact plainly [] (by rw [after, close_stack, queueMsg_stack]; rfl) (.inr ⟨_, top⟩)
      (List.forall_mem_nil _)
  | dispatch buf fd rest top steady =>
    obtain ⟨first, stack, each⟩ := detached_stack lib buf { s with stack := rest }
    exact steadily steady (fun _ handler => (Frame.plain_spec handler.1).2.2) first stack each (.inr ⟨_, top⟩)
  | ask buf fd rest top asked =>
    obtain ⟨first, stack, each⟩ := detached_stack lib buf { s with stack := rest }
    have hooked := asked
    cases asked with
    | hook t steady attrbuf obj method k noReply data carried after =>
      refine ⟨.app (.preInvoke obj method k data) :: .preInvoked obj method k noReply :: first, rest, ?_,
        .inr ⟨_, top⟩, .ask _ obj method k noReply first each buf fd rest top hooked⟩
      have same : t.stack = first ++ rest := steady.stack_eq.trans stack
      rw [after]
      exact congrArg (fun stack => _ :: _ :: stack) same

theorem abort_attached (r : Nat) (s : State) : (ubusAbortRequest r s).msgbufData = s.msgbufData := by
  unfold ubusAbortRequest
  split
  · rfl
  · rw [freeAll_eq]
    rfl

theorem Storage.attached {s s' : State} (storage : Storage lib env action s s') :
    s'.msgbufData = s.msgbufData ∨ (∃ rest, s.stack = .handleRead :: rest) ∨
      (∃ prevData rest, s.stack = .restoreData prevData :: rest) ∨
      ∃ buf fd rest, s.stack = .processMsg buf fd :: rest := by
  obtain ⟨t, opens, path⟩ := storage.ops
  clear storage
  have later : s'.msgbufData = t.msgbufData ∨ ∃ buf fd rest, s.stack = .processMsg buf fd :: rest := by
    induction path with
    | refl => exact .inl rfl
    | tail _ op ih =>
      refine ih.elim (fun same => ?_) .inr
      cases op with
      | steady steady => exact .inl ((congrArg Memory.msgbufData steady.memory).trans same)
      | queueMsg env buf => exact .inl ((queueMsg_attached ..).trans same)
      | detach allowed buf => exact .inr allowed
      | _ => exact .inl same
  rcases later with same | message
  · cases opens with
    | restore prevData rest top => exact .inr (.inr (.inl ⟨prevData, rest, top⟩))
    | receive rest top allocated hdr data => exact .inr (.inl ⟨rest, top⟩)
    | abort r => exact .inl (same.trans (abort_attached r s))
    | _ => exact .inl same
  · exact .inr (.inr (.inr message))

/-- **Every block of a context has one owner.** In every state a block that is the receive buffer,
detached, queued in `ctx->pending` or in the list of a request is live, and is held at no other place;
and a step leaves a block alone unless the frame on top holds it, it is in the list of a request, or it
is the receive buffer and a message is read. -/
theorem blocks_owned_once {s : State} (reachable : Reachable lib s) :
    (∀ owner b, b ∈ s.owns owner → (s.buf b).live = true ∧ (s.owns owner).count b = 1 ∧
      ∀ other, b ∈ s.owns other → other = owner) ∧
    ∀ env action b, b < s.brk → (step lib env action s).buf b ≠ s.buf b → Touched s b := by
  have owned := reachable.owned
  refine ⟨fun owner b mine => ⟨owned.live mine, ?_, fun other its => ?_⟩, fun env action b old changed => ?_⟩
  · exact List.count_eq_one_of_mem (owned.separate.nodup owner) mine
  · exact owned.separate.unique its mine
  · exact ((step_storage lib env action s).block old).same.resolve_left changed

/-- A message is read. -/
theorem blocks_owned_once_read : ∃ s, Reachable libubox s ∧ s.msgbufData = some 0 ∧
    (s.buf 0).live = true ∧ (s.owns .msgbuf).count 0 = 1 := by
  obtain ⟨s, start⟩ : ∃ s, run libubox ([doing .handleEvent] ++ quietly 2 ++
    [receiving { type := MsgType.notify.code } (Blob.rawBlob [.int32 .objid 5]) none]) (init false {}) = s :=
    ⟨_, rfl⟩
  have reachable : Reachable libubox s := start ▸ ⟨false, {}, run_steps _ _⟩
  have attached : s.msgbufData = some 0 := by
    rw [← start]
    decide +kernel
  obtain ⟨live, once, -⟩ := (blocks_owned_once reachable).1 .msgbuf 0 (mem_msgbuf attached)
  exact ⟨s, reachable, attached, live, once⟩

end Ubus.Libubus
