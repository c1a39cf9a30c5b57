/-
**The replies to a message** (`ubusd_proto_receive_message`).

* `lettersAbout ub out` — the letters that were submitted while the daemon worked on a message.
* `discipline_answer`: what the bus does for a message other than a lookup obeys `Discipline`.
-/

import Ubus.Deeds
import Ubus.Safety

namespace Ubus

open Lib Relation

variable {ub cl : Nat} {new : List Letter} {place : Option (Option CString)} {hdr : Msghdr}
  {item : Waiting} {start : Option CString} {ret : Ret}

/-- **The letters that were submitted for a message.** -/
def lettersAbout (ub : Nat) (out : List Letter) : List Letter :=
  out.filter fun letter => letter.cause.buf = some ub

/-- The `STATUS` and `DATA` letters. -/
def replies (sent : List Letter) : List Letter :=
  sent.filter fun letter =>
    letter.hdr.type = MsgType.status.code ∨ letter.hdr.type = MsgType.data.code

/-- The object id in a letter that the daemon built. -/
def Letter.objid (letter : Letter) : Option UInt32 :=
  match letter.data with
  | .built puts => puts.findSome? fun
    | .int32 .objid id => some id
    | _ => none
  | _ => none

/-- A message that the daemon answers itself, other than a lookup: all but `STATUS`, `DATA` and
`NOTIFY`, and `INVOKE` on an object of a client. -/
def OwnRequest (lib : Libubox) (reg : Registry) (mail : Mail) : Prop :=
  (mail.hdr.type ≠ MsgType.status.code ∧ mail.hdr.type ≠ MsgType.data.code ∧
    mail.hdr.type ≠ MsgType.notify.code) ∧ mail.hdr.type ≠ MsgType.lookup.code ∧
    (mail.hdr.type = MsgType.invoke.code → Bus.SystemCall lib reg mail.data)

/-- One status that is an error, and nothing else. -/
def Refused (mail : Mail) (sent : List Letter) : Prop :=
  ∃ cause code, code ≠ .ok ∧ sent = [Bus.statusLetter cause mail.cl mail.hdr code]

/-- `DATA` only. -/
def Partly (mail : Mail) (sent : List Letter) : Prop :=
  ∀ letter ∈ replies sent, letter.Replies .data mail.cl mail.hdr

/-- **`DATA`, and then one `STATUS`**, all to the client and with its sequence number and peer. -/
def Answered (mail : Mail) (sent : List Letter) : Prop :=
  ∃ datas status, replies sent = datas ++ [status] ∧
    (∀ letter ∈ datas, letter.Replies .data mail.cl mail.hdr) ∧
    status.Replies .status mail.cl mail.hdr

/-- A notification was passed on to one subscriber. -/
structure Forwards (reg : Registry) (sub : Nat) (letter : Letter) : Prop where
  dest : (reg.object (reg.subscription sub).subscriber).client = some letter.dest
  type : letter.hdr.type = MsgType.invoke.code
  objid : letter.objid = some (reg.object (reg.subscription sub).subscriber).id

/-- **A notification was passed on** to all subscribers, after a status that lists them in the same
order. -/
def Spread (lib : Libubox) (reg : Registry) (mail : Mail) (sent : List Letter) : Prop :=
  ∃ cause objid obj forwards, ubusParseMsg lib mail.data .objid = some objid ∧
    ubusdFindObject reg (lib.blobGetU32 objid) = some obj ∧
    List.Forall₂ (Forwards reg) (reg.object obj).subscribers forwards ∧
    sent = (if Bus.noReply lib mail.data then [] else [⟨cause, mail.cl,
      { type := MsgType.status.code, seq := mail.hdr.seq, peer := mail.hdr.peer },
      .built (notifyStatusPuts reg obj)⟩]) ++ forwards

/-- **The letters that a message may lead to**; `unfinished` is whether a lookup is still on its way. -/
structure Discipline (lib : Libubox) (reg : Registry) (mail : Mail) (unfinished : Prop)
    (sent : List Letter) : Prop where
  request : OwnRequest lib reg mail → Answered mail sent
  lookup : mail.hdr.type = MsgType.lookup.code → Answered mail sent ∨ unfinished ∧ Partly mail sent
  call : mail.hdr.type = MsgType.invoke.code → ∀ objid obj owner,
    ubusParseMsg lib mail.data .objid = some objid →
    ubusdFindObject reg (lib.blobGetU32 objid) = some obj → (reg.object obj).client = some owner →
    Refused mail sent ∨ ∃ letter, sent = [letter] ∧ letter.dest = owner ∧
      letter.hdr.type = MsgType.invoke.code ∧ letter.objid = some (reg.object obj).id
  notify : mail.hdr.type = MsgType.notify.code → Refused mail sent ∨ Spread lib reg mail sent
  response : mail.hdr.type = MsgType.status.code ∨ mail.hdr.type = MsgType.data.code →
    sent = [] ∨ ∃ letter, sent = [letter] ∧ reg.clients.find mail.hdr.peer = some letter.dest ∧
      letter.hdr.type = mail.hdr.type ∧ letter.data = mail.data

/-! ### What the bus does for a message -/

section Answer

variable {lib : Libubox} {reg : Registry} {mail : Mail} {unfinished : Prop} {sent : List Letter}

theorem Refused.answered (refused : Refused mail sent) : Answered mail sent := by
  obtain ⟨cause, code, -, rfl⟩ := refused
  exact ⟨[], _, rfl, nofun, ⟨rfl, rfl, rfl, rfl⟩⟩

theorem Discipline.of_refused (request : mail.hdr.type ≠ MsgType.status.code ∧
    mail.hdr.type ≠ MsgType.data.code) (refused : Refused mail sent) :
    Discipline lib reg mail unfinished sent where
  request := fun _ => refused.answered
  lookup := fun _ => Or.inl refused.answered
  call := fun _ _ _ _ _ _ _ => Or.inl refused
  notify := fun _ => Or.inl refused
  response := fun typed => absurd typed (not_or.mpr request)

theorem Discipline.of_answered (request : mail.hdr.type ≠ MsgType.status.code ∧
    mail.hdr.type ≠ MsgType.data.code ∧ mail.hdr.type ≠ MsgType.notify.code)
    (own : mail.hdr.type = MsgType.invoke.code → Bus.SystemCall lib reg mail.data)
    (answered : Answered mail sent) : Discipline lib reg mail unfinished sent where
  request := fun _ => answered
  lookup := fun _ => Or.inl answered
  call := fun typed objid obj owner hasObjid found owned => by
    rw [own typed objid obj hasObjid found] at owned
    cases owned
  notify := fun typed => absurd typed request.2.2
  response := fun typed => absurd typed (not_or.mpr ⟨request.1, request.2.1⟩)

theorem replies_append (one two : List Letter) : replies (one ++ two) = replies one ++ replies two :=
  List.filter_append ..

theorem replies_of_data (all : ∀ letter ∈ new, letter.Replies .data cl hdr) : replies new = new :=
  List.filter_eq_self.mpr fun letter member => by simp [(all letter member).type]

theorem replies_of_notices (all : ∀ letter ∈ new, letter.Notice) : replies new = [] := by
  refine List.filter_eq_nil_iff.mpr fun letter member => ?_
  rcases all letter member with typed | typed | typed <;> simp only [typed] <;> decide

theorem Discipline.of_call {letter : Letter} {obj owner : Nat} {objid : Bytes}
    (asked : mail.hdr.type = MsgType.invoke.code)
    (hasObjid : ubusParseMsg lib mail.data .objid = some objid)
    (found : ubusdFindObject reg (lib.blobGetU32 objid) = some obj)
    (owned : (reg.object obj).client = some owner) (dest : letter.dest = owner)
    (type : letter.hdr.type = MsgType.invoke.code) (named : letter.objid = some (reg.object obj).id) :
    Discipline lib reg mail unfinished [letter] where
  request := fun request => by
    rw [request.2.2 asked objid obj hasObjid found] at owned
    cases owned
  lookup := fun typed => by
    rw [asked] at typed
    exact absurd typed (by decide)
  call := fun _ objid' obj' owner' hasObjid' found' owned' => by
    cases hasObjid.symm.trans hasObjid'
    cases found.symm.trans found'
    cases owned.symm.trans owned'
    exact Or.inr ⟨letter, rfl, dest, type, named⟩
  notify := fun typed => by
    rw [asked] at typed
    exact absurd typed (by decide)
  response := fun typed => by
    rw [asked] at typed
    exact absurd typed (by decide)

theorem Discipline.of_notify (asked : mail.hdr.type = MsgType.notify.code)
    (spread : Spread lib reg mail sent) : Discipline lib reg mail unfinished sent where
  request := fun request => absurd asked request.1.2.2
  lookup := fun typed => by
    rw [asked] at typed
    exact absurd typed (by decide)
  call := fun typed => by
    rw [asked] at typed
    exact absurd typed (by decide)
  notify := fun _ => Or.inr spread
  response := fun typed => by
    rw [asked] at typed
    exact absurd typed (by decide)

theorem Discipline.of_response
    (asked : mail.hdr.type = MsgType.status.code ∨ mail.hdr.type = MsgType.data.code)
    (passed : sent = [] ∨ ∃ letter, sent = [letter] ∧
      reg.clients.find mail.hdr.peer = some letter.dest ∧ letter.hdr.type = mail.hdr.type ∧
      letter.data = mail.data) : Discipline lib reg mail unfinished sent := by
  have kinds : ∀ {type : MsgType}, type ≠ .status → type ≠ .data → mail.hdr.type ≠ type.code := by
    intro type notStatus notData typed
    rw [typed] at asked
    simp only [MsgType.code_inj] at asked
    exact asked.elim notStatus notData
  refine ⟨fun request => ?_, fun typed => ?_, fun typed => ?_, fun typed => ?_, fun _ => passed⟩
  · exact absurd asked (not_or.mpr ⟨request.1.1, request.1.2.1⟩)
  · exact absurd typed (kinds (by decide) (by decide))
  · exact absurd typed (kinds (by decide) (by decide))
  · exact absurd typed (kinds (by decide) (by decide))

variable {b : Bus}

theorem notifyRounds_spec (lib : Libubox) (cl : Nat) (hdr : Msghdr) (noReply : Bool) (method : CString) (data : Option Bytes) (subs : List Nat)
    (b : Bus) (owned : ∀ sub ∈ subs, ∃ dest,
      (b.reg.object (b.reg.subscription sub).subscriber).client = some dest) :
    ∃ forwards, (subs.foldl (Bus.notifyRound lib cl hdr noReply method data) b).out =
        b.out ++ forwards ∧ (∀ letter ∈ forwards, letter.cause = b.cause) ∧
      List.Forall₂ (Forwards b.reg) subs forwards := by
  induction subs generalizing b with
  | nil => exact ⟨[], (List.append_nil _).symm, nofun, .nil⟩
  | cons sub rest ih =>
    obtain ⟨dest, client⟩ := owned sub List.mem_cons_self
    obtain ⟨letter, sent, cause, forwards⟩ : ∃ letter,
        Bus.notifyRound lib cl hdr noReply method data b sub = { b with out := b.out ++ [letter] } ∧
          letter.cause = b.cause ∧ Forwards b.reg sub letter := by
      refine ⟨⟨b.cause, dest, { type := MsgType.invoke.code, seq := hdr.seq, peer := hdr.peer },
        .built ((if noReply then [.int8 .noReply 1] else []) ++ invokePuts lib (b.reg.client cl).cred
          (b.reg.object (b.reg.subscription sub).subscriber).id method data)⟩, ?_, rfl, client, rfl, ?_⟩
      · simp only [Bus.notifyRound, Bus.forwardInvoke, Bus.reply, client, Bus.submitTo, Bus.submit]
      · cases noReply <;> rfl
    obtain ⟨more, out, causes, all⟩ := ih { b with out := b.out ++ [letter] } fun other member =>
      owned other (List.mem_cons_of_mem _ member)
    refine ⟨letter :: more, ?_, ?_, .cons forwards all⟩
    · rw [List.foldl_cons, sent, out, List.append_assoc]
      rfl
    · exact List.forall_mem_cons.mpr ⟨cause, causes⟩

/-- **What the bus does for a message other than a lookup.** -/
theorem discipline_answer (good : b.reg.Ok) (other : mail.hdr.type ≠ MsgType.lookup.code) :
    ∃ new, (b.answer lib mail.cl mail.hdr mail.data).out = b.out ++ new ∧
      (∀ letter ∈ new, letter.cause = b.cause) ∧ Discipline lib b.reg mail unfinished new := by
  have handled : Bus.Handled lib mail.cl mail.hdr mail.data b _ _ := Bus.handled_handle other
  unfold Bus.answer
  generalize Bus.handle lib mail.cl mail.hdr mail.data b = result at handled ⊢
  obtain ⟨ret, b'⟩ := result
  simp only at handled
  cases handled with
  | @refused code error request =>
    exact ⟨[Bus.statusLetter b.cause mail.cl mail.hdr code], rfl, by simp [Bus.statusLetter],
      .of_refused request ⟨_, _, error, rfl⟩⟩
  | @served code b₁ b₂ _ request own before deed after =>
    obtain ⟨datas, rfl, all⟩ := before
    obtain ⟨cause, notices, out, all'⟩ := deed.adds
    obtain ⟨more, rfl, all''⟩ := after
    have causes : b₂.cause = b.cause := cause
    refine ⟨datas ++ notices ++ more ++ [Bus.statusLetter b.cause mail.cl mail.hdr code], ?_, ?_, ?_⟩
    · show (b₂.out ++ more) ++ [Bus.statusLetter b₂.cause mail.cl mail.hdr code] = _
      rw [out, causes]
      simp only [List.append_assoc]
    · simp only [List.mem_append, List.mem_singleton]
      rintro letter (((member | member) | member) | rfl)
      · exact (all letter member).1
      · exact (all' letter member).1
      · exact (all'' letter member).1.trans causes
      · rfl
    · refine .of_answered request own ⟨datas ++ more, Bus.statusLetter b.cause mail.cl mail.hdr code, ?_,
        ?_, ⟨rfl, rfl, rfl, rfl⟩⟩
      · rw [replies_append, replies_append, replies_append,
          replies_of_data fun letter member => (all letter member).2,
          replies_of_notices fun letter member => (all' letter member).2,
          replies_of_data fun letter member => (all'' letter member).2, List.append_nil]
        rfl
      · intro letter member
        exact (List.mem_append.mp member).elim (fun member => (all letter member).2)
          fun member => (all'' letter member).2
  | called asked hasMethod hasObjid found owned =>
    exact ⟨[_], rfl, by simp, .of_call asked hasObjid found owned rfl rfl rfl⟩
  | @notified obj method objid b₁ asked hasMethod hasObjid found mine told =>
    have has := has_of_found found
    have same : b₁.reg = b.reg ∧ b₁.cause = b.cause ∧ b₁.out = b.out ++
        if Bus.noReply lib mail.data then [] else [⟨b.cause, mail.cl,
          { type := MsgType.status.code, seq := mail.hdr.seq, peer := mail.hdr.peer },
          .built (notifyStatusPuts b.reg obj)⟩] := by
      rw [told]
      split
      · exact ⟨rfl, rfl, (List.append_nil _).symm⟩
      · exact ⟨rfl, rfl, rfl⟩
    obtain ⟨reg, cause, out⟩ := same
    obtain ⟨forwards, out', causes, all⟩ := notifyRounds_spec lib mail.cl
      { mail.hdr with peer := (b.reg.client mail.cl).id } (Bus.noReply lib mail.data)
      (lib.blobString method) (ubusParseMsg lib mail.data .data) (b.reg.object obj).subscribers b₁
      fun sub member => by
        obtain ⟨dest, _, client, -⟩ := good.subs.owners obj sub has member
        rw [reg]
        exact ⟨dest, client⟩
    rw [reg] at all
    refine ⟨_, ?_, ?_, .of_notify asked ⟨b.cause, objid, obj, forwards, hasObjid, found, all, rfl⟩⟩
    · exact out'.trans (by rw [out, List.append_assoc])
    intro letter member
    rcases List.mem_append.mp member with member | member
    · split at member
      · cases member
      · rw [List.mem_singleton.mp member]
    · exact (causes letter member).trans cause
  | responded asked hasObjid known =>
    exact ⟨[_], rfl, by simp, .of_response asked (Or.inr ⟨_, rfl, known, rfl, rfl⟩)⟩
  | ignored asked => exact ⟨[], (List.append_nil _).symm, nofun, .of_response asked (Or.inl rfl)⟩

end Answer

/-! ### Letters belong to messages -/

section Filed

variable {lib : Libubox} {w w' : World}

theorem lettersAbout_append (ub : Nat) (out new : List Letter) :
    lettersAbout ub (out ++ new) = lettersAbout ub out ++ lettersAbout ub new :=
  List.filter_append ..

theorem lettersAbout_of_cause {cause : Cause} (all : ∀ letter ∈ new, letter.cause = cause) :
    lettersAbout ub new = if cause.buf = some ub then new else [] := by
  split
  · rename_i here
    exact List.filter_eq_self.mpr fun letter member => by simp [all letter member, here]
  · rename_i other
    exact List.filter_eq_nil_iff.mpr fun letter member => by simp [all letter member, other]

theorem Bus.Through.adds {b b' : Bus} (through : Bus.Through lib cl b b') :
    Bus.Adds (fun _ => True) b b' := by
  obtain ⟨b₁, b₂, before, deed, after⟩ := through
  exact ((before.adds.mono fun _ _ => trivial).trans (deed.adds.mono fun _ _ => trivial)).trans
    (after.adds.mono fun _ _ => trivial)

theorem World.Step.letters (step : World.Step lib w w') : ∃ cause new,
    w'.bus.out = w.bus.out ++ new ∧ (∀ letter ∈ new, letter.cause = cause) ∧
      ∀ ub, cause.buf = some ub → (∃ mail, w'.mails = w.mails ++ [mail] ∧ mail.ub = ub) ∨
        ∃ cl item rest, w.waiting cl = item :: rest ∧ item.ub = ub := by
  have origin : ∀ {b : Bus}, Bus.Adds (fun _ => True) b w'.bus → ∃ new, w'.bus.out = b.out ++ new ∧
      ∀ letter ∈ new, letter.cause = b.cause := fun adds => by
    obtain ⟨-, new, out, all⟩ := adds
    exact ⟨new, out, fun letter member => (all letter member).1⟩
  cases step with
  | rest cause rnd bus waiting mails =>
    exact ⟨.idle, [], by rw [bus, List.append_nil], nofun, nofun⟩
  | connect cred bus waiting mails =>
    obtain ⟨⟨-, new, out, all⟩, -⟩ := Bus.connect_spec cred w.bus
    exact ⟨_, new, bus ▸ out, fun letter member => (all letter member).1, nofun⟩
  | answer cl ub hdr data known fresh other bus waiting mails =>
    have handled : Bus.Handled lib cl hdr data (w.on cl ub hdr data) _ _ := Bus.handled_handle other
    have adds : Bus.Adds (fun _ => True) (w.on cl ub hdr data) w'.bus := by
      rw [bus]
      exact (handled.through (w.good.client_ne_zero known)).adds
    obtain ⟨new, out, all⟩ := origin adds
    exact ⟨_, new, out, all, fun _ same => Or.inl ⟨_, mails, Option.some.inj same⟩⟩
  | lookup cl ub hdr data known fresh typed ret place goes waiting mails =>
    obtain ⟨new, out, all⟩ := origin (goes.posts.adds.mono fun _ _ => trivial)
    exact ⟨_, new, out, all, fun _ same => Or.inl ⟨_, mails, Option.some.inj same⟩⟩
  | resume cl item rest known first ret place goes waiting mails =>
    obtain ⟨new, out, all⟩ := origin (goes.posts.adds.mono fun _ _ => trivial)
    exact ⟨_, new, out, all, fun _ same => Or.inr ⟨cl, item, rest, first, Option.some.inj same⟩⟩
  | disconnect cl known bus waiting mails =>
    obtain ⟨⟨-, new, out, all⟩, -⟩ := Bus.disconnect_spec lib cl w.bus
    exact ⟨_, new, bus ▸ out, fun letter member => (all letter member).1, nofun⟩
  | aclLoad host dir fault bus waiting mails =>
    obtain ⟨⟨-, new, out, all⟩, -⟩ := Bus.aclLoad_spec lib host dir fault w.bus
    exact ⟨_, new, bus ▸ out, fun letter member => (all letter member).1, nofun⟩

/-- **Messages, waiting lookups and letters belong together**: a message has a buffer of its own, a
lookup waits once and was received, and letters are for messages that were received. -/
structure World.Filed (w : World) : Prop where
  nodup : (w.mails.map Mail.ub).Nodup
  waiting : ∀ cl, ∀ item ∈ w.waiting cl,
    ⟨cl, item.ub, item.hdr, item.data⟩ ∈ w.mails ∧ item.hdr.type = MsgType.lookup.code
  once : ∀ cl, ((w.waiting cl).map Waiting.ub).Nodup
  letters : ∀ letter ∈ w.bus.out, ∀ ub, letter.cause.buf = some ub → ∃ mail ∈ w.mails, mail.ub = ub

theorem World.mem_entry {data : Payload} (member : item ∈ World.entry ub hdr data place) :
    item.ub = ub ∧ item.hdr = hdr ∧ item.data = data := by
  cases place with
  | none => cases member
  | some place =>
    rw [List.mem_singleton.mp member]
    exact ⟨rfl, rfl, rfl⟩

theorem World.entry_ub (ub : Nat) (hdr : Msghdr) (data : Payload) (place : Option (Option CString)) :
    (World.entry ub hdr data place).map Waiting.ub = (place.map fun _ => ub).toList := by
  cases place <;> rfl

theorem World.Step.mails (step : World.Step lib w w') : w'.mails = w.mails ∨
    ∃ mail, w'.mails = w.mails ++ [mail] ∧ ∀ other ∈ w.mails, other.ub ≠ mail.ub := by
  cases step with
  | rest cause rnd bus waiting mails => exact Or.inl mails
  | connect cred bus waiting mails => exact Or.inl mails
  | answer cl ub hdr data known fresh other bus waiting mails => exact Or.inr ⟨_, mails, fresh⟩
  | lookup cl ub hdr data known fresh typed ret place goes waiting mails =>
    exact Or.inr ⟨_, mails, fresh⟩
  | resume cl item rest known first ret place goes waiting mails => exact Or.inl mails
  | disconnect cl known bus waiting mails => exact Or.inl mails
  | aclLoad host dir fault bus waiting mails => exact Or.inl mails

/-- How the queues of waiting lookups change. -/
inductive World.Queues (w w' : World) : Prop where
  | same (waiting : w'.waiting = w.waiting)
  | received (cl ub : Nat) (hdr : Msghdr) (data : Payload) (place : Option (Option CString))
      (fresh : ∀ mail ∈ w.mails, mail.ub ≠ ub) (typed : hdr.type = MsgType.lookup.code)
      (mails : w'.mails = w.mails ++ [⟨cl, ub, hdr, data⟩])
      (waiting : w'.waiting = Function.update w.waiting cl
        (w.waiting cl ++ World.entry ub hdr data place))
  | resumed (cl : Nat) (item : Waiting) (rest : List Waiting) (place : Option (Option CString))
      (first : w.waiting cl = item :: rest)
      (waiting : w'.waiting = Function.update w.waiting cl
        (World.entry item.ub item.hdr item.data place ++ rest))
  | dropped (cl : Nat) (waiting : w'.waiting = Function.update w.waiting cl [])

theorem World.Step.queues (step : World.Step lib w w') : w.Queues w' := by
  cases step with
  | rest cause rnd bus waiting mails => exact .same waiting
  | connect cred bus waiting mails => exact .same waiting
  | answer cl ub hdr data known fresh other bus waiting mails => exact .same waiting
  | lookup cl ub hdr data known fresh typed ret place goes waiting mails =>
    exact .received cl ub hdr data place fresh typed mails waiting
  | resume cl item rest known first ret place goes waiting mails =>
    exact .resumed cl item rest place first waiting
  | disconnect cl known bus waiting mails => exact .dropped cl waiting
  | aclLoad host dir fault bus waiting mails => exact .same waiting

theorem World.Filed.step (filed : w.Filed) (step : World.Step lib w w') : w'.Filed := by
  obtain ⟨nodup, waiting, once, letters⟩ := filed
  have grows : ∀ mail ∈ w.mails, mail ∈ w'.mails := by
    intro mail member
    obtain mails | ⟨_, mails, -⟩ := step.mails
    · rw [mails]
      exact member
    · rw [mails]
      exact List.mem_append_left _ member
  have waiting' : ∀ cl, ∀ item ∈ w.waiting cl, ⟨cl, item.ub, item.hdr, item.data⟩ ∈ w'.mails ∧
      item.hdr.type = MsgType.lookup.code := fun cl item member =>
    (waiting cl item member).imp_left (grows _)
  have listed : ∀ {cl : Nat} {queue : List Waiting}, (∀ item ∈ queue,
      (⟨cl, item.ub, item.hdr, item.data⟩ : Mail) ∈ w'.mails ∧
        item.hdr.type = MsgType.lookup.code) → ∀ other,
      ∀ item ∈ Function.update w.waiting cl queue other,
        ⟨other, item.ub, item.hdr, item.data⟩ ∈ w'.mails ∧ item.hdr.type = MsgType.lookup.code :=
    fun here => (Function.forall_update_iff w.waiting fun cl queue => ∀ item ∈ queue,
      (⟨cl, item.ub, item.hdr, item.data⟩ : Mail) ∈ w'.mails ∧
        item.hdr.type = MsgType.lookup.code).mpr ⟨here, fun other _ => waiting' other⟩
  have single : ∀ {cl : Nat} {queue : List Waiting}, (queue.map Waiting.ub).Nodup → ∀ other,
      ((Function.update w.waiting cl queue other).map Waiting.ub).Nodup :=
    fun here => (Function.forall_update_iff w.waiting fun _ queue =>
      (queue.map Waiting.ub).Nodup).mpr ⟨here, fun other _ => once other⟩
  refine ⟨?_, ?_, ?_, ?_⟩
  · obtain mails | ⟨mail, mails, fresh⟩ := step.mails
    · rw [mails]
      exact nodup
    rw [mails, List.map_append, List.map_singleton]
    refine nodup.append (List.nodup_singleton _) fun ub member here => ?_
    obtain ⟨other, inside, rfl⟩ := List.mem_map.mp member
    exact fresh other inside (List.mem_singleton.mp here)
  · cases step.queues with
    | same same =>
      rw [same]
      exact waiting'
    | received cl ub hdr data place fresh typed mails same =>
      rw [same]
      refine listed fun item member => ?_
      rcases List.mem_append.mp member with member | member
      · exact waiting' cl item member
      · obtain ⟨rfl, rfl, rfl⟩ := World.mem_entry member
        rw [mails]
        exact ⟨List.mem_append_right _ List.mem_cons_self, typed⟩
    | resumed cl first rest place here same =>
      rw [same]
      have old := waiting' cl
      rw [here] at old
      refine listed fun item member => ?_
      rcases List.mem_append.mp member with member | member
      · obtain ⟨sameUb, sameHdr, sameData⟩ := World.mem_entry member
        rw [sameUb, sameHdr, sameData]
        exact old first List.mem_cons_self
      · exact old item (List.mem_cons_of_mem _ member)
    | dropped cl same =>
      rw [same]
      exact listed nofun
  · cases step.queues with
    | same same =>
      rw [same]
      exact once
    | received cl ub hdr data place fresh typed mails same =>
      rw [same]
      refine single ?_
      rw [List.map_append, World.entry_ub]
      cases place with
      | none => simpa using once cl
      | some place =>
        refine (once cl).append (List.nodup_singleton _) fun other member here => ?_
        obtain ⟨item, inside, rfl⟩ := List.mem_map.mp member
        exact fresh _ (waiting cl item inside).1 (List.mem_singleton.mp here)
    | resumed cl first rest place here same =>
      rw [same]
      have old := once cl
      rw [here, List.map_cons] at old
      refine single ?_
      rw [List.map_append, World.entry_ub]
      cases place with
      | none => exact old.of_cons
      | some place => exact old
    | dropped cl same =>
      rw [same]
      exact single List.nodup_nil
  · obtain ⟨cause, new, out, all, origin⟩ := step.letters
    intro letter member ub here
    rw [out] at member
    rcases List.mem_append.mp member with member | member
    · obtain ⟨mail, inside, same⟩ := letters letter member ub here
      exact ⟨mail, grows mail inside, same⟩
    rw [all letter member] at here
    obtain ⟨mail, mails, same⟩ | ⟨cl, item, rest, first, same⟩ := origin ub here
    · rw [mails]
      exact ⟨mail, List.mem_append_right _ List.mem_cons_self, same⟩
    · have known := waiting' cl item (by rw [first]; exact List.mem_cons_self)
      exact ⟨_, known.1, same⟩

theorem Mail.eq_of_ub (filed : w.Filed) {one two : Mail} (member : one ∈ w.mails)
    (member' : two ∈ w.mails) (same : one.ub = two.ub) : one = two :=
  List.inj_on_of_nodup_map filed.nodup member member' same

theorem World.Filed.about_fresh (filed : w.Filed) (fresh : ∀ mail ∈ w.mails, mail.ub ≠ ub) :
    lettersAbout ub w.bus.out = [] := by
  refine List.filter_eq_nil_iff.mpr fun letter member here => ?_
  obtain ⟨mail, inside, same⟩ := filed.letters letter member ub (of_decide_eq_true here)
  exact fresh mail inside same

end Filed

/-! ### A message from its receipt on -/

section Phase

variable {lib : Libubox} {reg : Registry} {mail : Mail} {w w' : World} {b b' : Bus}

theorem Bus.Adds.about {P : Letter → Prop} (adds : Bus.Adds P b b')
    (other : b.cause.buf ≠ some ub) : lettersAbout ub b'.out = lettersAbout ub b.out := by
  obtain ⟨-, new, out, all⟩ := adds
  rw [out, lettersAbout_append, lettersAbout_of_cause fun letter member => (all letter member).1,
    if_neg other, List.append_nil]

theorem Partly.append {old : List Letter} (partly : Partly mail old)
    (datas : ∀ letter ∈ new, letter.Replies .data mail.cl mail.hdr) : Partly mail (old ++ new) := by
  unfold Partly
  rw [replies_append, replies_of_data datas]
  exact List.forall_mem_append.mpr ⟨partly, datas⟩

theorem Bus.Goes.letters (goes : b.Goes lib mail.cl mail.hdr mail.data start ret place b') : ∃ new,
    b'.out = b.out ++ new ∧ (∀ letter ∈ new, letter.cause = b.cause) ∧
      ∀ old, Partly mail old → (place = none ∧ Answered mail (old ++ new)) ∨
        (place ≠ none ∧ Partly mail (old ++ new)) := by
  cases goes with
  | @finished code _ looks =>
    obtain ⟨datas, rfl, all⟩ := looks.posts
    refine ⟨datas ++ [Bus.statusLetter b.cause mail.cl mail.hdr code], ?_, ?_, fun old partly => ?_⟩
    · exact List.append_assoc ..
    · exact List.forall_mem_append.mpr ⟨fun letter member => (all letter member).1, by
        simp [Bus.statusLetter]⟩
    have more := partly.append fun letter member => (all letter member).2
    refine Or.inl ⟨rfl, replies (old ++ datas), Bus.statusLetter b.cause mail.cl mail.hdr code, ?_,
      more, ⟨rfl, rfl, rfl, rfl⟩⟩
    rw [← List.append_assoc, replies_append]
    rfl
  | waits looks =>
    obtain ⟨datas, rfl, all⟩ := looks.posts
    exact ⟨datas, rfl, fun letter member => (all letter member).1, fun old partly =>
      Or.inr ⟨nofun, partly.append fun letter member => (all letter member).2⟩⟩
  | busy =>
    refine ⟨[], (List.append_nil _).symm, nofun, fun old partly => Or.inr ⟨nofun, ?_⟩⟩
    rw [List.append_nil]
    exact partly

theorem Discipline.of_unfinished {unfinished : Prop} {sent : List Letter}
    (typed : mail.hdr.type = MsgType.lookup.code) (on : unfinished) (partly : Partly mail sent) :
    Discipline lib reg mail unfinished sent := by
  have kinds : ∀ {type : MsgType}, type ≠ .lookup → mail.hdr.type ≠ type.code := by
    intro type other same
    rw [typed, MsgType.code_inj] at same
    exact other same.symm
  refine ⟨fun request => ?_, fun _ => Or.inr ⟨on, partly⟩, fun asked => ?_, fun asked => ?_,
    fun asked => ?_⟩
  · exact absurd typed request.2.1
  · exact absurd asked (kinds (by decide))
  · exact absurd asked (kinds (by decide))
  · exact absurd asked (not_or.mpr ⟨kinds (by decide), kinds (by decide)⟩)

theorem Discipline.of_lookup {unfinished : Prop} {sent : List Letter}
    (typed : mail.hdr.type = MsgType.lookup.code) (answered : Answered mail sent) :
    Discipline lib reg mail unfinished sent := by
  refine .of_answered ?_ ?_ answered
  · rw [typed]
    decide
  · rw [typed]
    exact fun call => absurd call (by decide)

theorem Discipline.mono {before after : Prop} {sent : List Letter} (imp : before → after)
    (discipline : Discipline lib reg mail before sent) : Discipline lib reg mail after sent :=
  ⟨discipline.request, fun typed => (discipline.lookup typed).imp_right (And.imp_left imp),
    discipline.call, discipline.notify, discipline.response⟩

/-- **A message after it was received**: it is done with, or it is a lookup that waits. -/
inductive Phase (lib : Libubox) (reg : Registry) (mail : Mail) (w : World) : Prop where
  | done (discipline : Discipline lib reg mail (¬ w.bus.reg.HasClient mail.cl)
        (lettersAbout mail.ub w.bus.out))
      (free : ∀ cl, ∀ item ∈ w.waiting cl, item.ub ≠ mail.ub)
  | waits (typed : mail.hdr.type = MsgType.lookup.code) (item : Waiting)
      (member : item ∈ w.waiting mail.cl) (same : item.ub = mail.ub)
      (partly : Partly mail (lettersAbout mail.ub w.bus.out))

theorem Phase.of_goes (front rest : List Waiting) (typed : mail.hdr.type = MsgType.lookup.code)
    (goes : b.Goes lib mail.cl mail.hdr mail.data start ret place w'.bus)
    (cause : b.cause.buf = some mail.ub) (partly : Partly mail (lettersAbout mail.ub b.out))
    (queue : w'.waiting mail.cl = front ++ World.entry mail.ub mail.hdr mail.data place ++ rest)
    (free : ∀ item ∈ front ++ rest, item.ub ≠ mail.ub)
    (others : ∀ cl, cl ≠ mail.cl → ∀ item ∈ w'.waiting cl, item.ub ≠ mail.ub) :
    Phase lib reg mail w' := by
  obtain ⟨new, out, causes, ends⟩ := goes.letters
  have about : lettersAbout mail.ub w'.bus.out = lettersAbout mail.ub b.out ++ new := by
    rw [out, lettersAbout_append, lettersAbout_of_cause causes, if_pos cause]
  have ends := ends _ partly
  rw [← about] at ends
  obtain ⟨rfl, answered⟩ | ⟨waits, partly⟩ := ends
  · refine .done (.of_lookup typed answered) fun cl item member => ?_
    by_cases same : cl = mail.cl
    · subst same
      rw [queue, World.entry] at member
      exact free item (by simpa using member)
    · exact others cl same item member
  · obtain ⟨place, rfl⟩ := Option.ne_none_iff_exists'.mp waits
    refine .waits typed ⟨mail.ub, mail.hdr, mail.data, place⟩ ?_ rfl partly
    rw [queue, World.entry]
    simp

/-- **A message is received.** -/
theorem Phase.begin (filed : w.Filed) (step : World.Step lib w w')
    (received : w'.mails = w.mails ++ [mail]) : Phase lib w.bus.reg mail w' := by
  have absurdity : ∀ {goal : Prop}, w'.mails = w.mails → goal := fun same => by
    rw [same] at received
    simp at received
  have free : ∀ {ub : Nat}, (∀ mail ∈ w.mails, mail.ub ≠ ub) → ∀ cl, ∀ item ∈ w.waiting cl,
      item.ub ≠ ub := fun fresh cl item member => fresh _ (filed.waiting cl item member).1
  cases step with
  | rest cause rnd bus waiting mails => exact absurdity mails
  | connect cred bus waiting mails => exact absurdity mails
  | answer cl ub hdr data known fresh other bus waiting mails =>
    obtain rfl : mail = ⟨cl, ub, hdr, data⟩ := by
      simpa using received.symm.trans mails
    obtain ⟨new, out, causes, discipline⟩ : ∃ new, _ ∧ _ ∧ Discipline lib _
        ⟨cl, ub, hdr, data⟩ (¬ w'.bus.reg.HasClient cl) new :=
      discipline_answer (b := w.on cl ub hdr data) w.good other
    have here : (w.on cl ub hdr data).cause.buf = some ub := rfl
    have old : lettersAbout ub (w.on cl ub hdr data).out = [] := filed.about_fresh fresh
    have about : lettersAbout ub w'.bus.out = new := by
      rw [bus, out, lettersAbout_append, lettersAbout_of_cause causes, if_pos here, old,
        List.nil_append]
    refine .done ?_ ?_
    · rw [about]
      exact discipline
    · rw [waiting]
      exact free fresh
  | lookup cl ub hdr data known fresh typed ret place goes waiting mails =>
    obtain rfl : mail = ⟨cl, ub, hdr, data⟩ := by
      simpa using received.symm.trans mails
    refine .of_goes (w.waiting cl) [] typed goes rfl ?_ ?_ ?_ ?_
    · rw [filed.about_fresh fresh]
      exact nofun
    · rw [waiting, Function.update_self, List.append_nil]
    · rw [List.append_nil]
      exact free fresh cl
    · intro other differs
      rw [waiting, Function.update_of_ne differs]
      exact free fresh other
  | resume cl item rest known first ret place goes waiting mails => exact absurdity mails
  | disconnect cl known bus waiting mails => exact absurdity mails
  | aclLoad host dir fault bus waiting mails => exact absurdity mails

theorem World.Step.free (known : mail ∈ w.mails) (step : World.Step lib w w')
    (free : ∀ cl, ∀ item ∈ w.waiting cl, item.ub ≠ mail.ub) :
    ∀ cl, ∀ item ∈ w'.waiting cl, item.ub ≠ mail.ub := by
  have updated : ∀ {cl : Nat} {queue : List Waiting}, (∀ item ∈ queue, item.ub ≠ mail.ub) →
      ∀ other, ∀ item ∈ Function.update w.waiting cl queue other, item.ub ≠ mail.ub :=
    fun here => (Function.forall_update_iff w.waiting fun _ queue =>
      ∀ item ∈ queue, item.ub ≠ mail.ub).mpr ⟨here, fun other _ => free other⟩
  cases step.queues with
  | same same =>
    rw [same]
    exact free
  | received cl ub hdr data place fresh typed mails same =>
    rw [same]
    refine updated (List.forall_mem_append.mpr ⟨free cl, fun item member => ?_⟩)
    rw [(World.mem_entry member).1]
    exact (fresh mail known).symm
  | resumed cl first rest place here same =>
    rw [same]
    have old := free cl
    rw [here] at old
    refine updated (List.forall_mem_append.mpr ⟨fun item member => ?_, fun item member =>
      old item (List.mem_cons_of_mem _ member)⟩)
    rw [(World.mem_entry member).1]
    exact old first List.mem_cons_self
  | dropped cl same =>
    rw [same]
    exact updated nofun

theorem Phase.step_done (known : mail ∈ w.mails) (below : mail.cl < w.bus.reg.brk)
    (step : World.Step lib w w')
    (discipline : Discipline lib reg mail (¬ w.bus.reg.HasClient mail.cl)
      (lettersAbout mail.ub w.bus.out))
    (free : ∀ cl, ∀ item ∈ w.waiting cl, item.ub ≠ mail.ub) : Phase lib reg mail w' := by
  refine .done ?_ ?_
  · obtain ⟨cause, new, out, causes, origin⟩ := step.letters
    have other : cause.buf ≠ some mail.ub := by
      intro here
      obtain ⟨fresh, mails, same⟩ | ⟨cl, item, rest, first, same⟩ := origin _ here
      · obtain same' | ⟨new, mails', unused⟩ := step.mails
        · rw [same'] at mails
          simp at mails
        · obtain rfl : fresh = new := by simpa using mails.symm.trans mails'
          exact unused mail known same.symm
      · exact free cl item (by rw [first]; exact List.mem_cons_self) same
    rw [out, lettersAbout_append, lettersAbout_of_cause causes, if_neg other, List.append_nil]
    refine discipline.mono fun gone has => ?_
    obtain has | same := step.round.clients.2 mail.cl has
    · exact gone has
    · exact absurd below (same ▸ lt_irrefl _)
  · exact step.free known free

theorem Phase.step_waits (filed : w.Filed) (known : mail ∈ w.mails) (step : World.Step lib w w')
    (typed : mail.hdr.type = MsgType.lookup.code) (member : item ∈ w.waiting mail.cl)
    (same : item.ub = mail.ub) (partly : Partly mail (lettersAbout mail.ub w.bus.out)) :
    Phase lib reg mail w' := by
  have stays : ∀ {cl : Nat} {queue : List Waiting}, w'.waiting = Function.update w.waiting cl queue →
      (cl = mail.cl → item ∈ queue) →
      lettersAbout mail.ub w'.bus.out = lettersAbout mail.ub w.bus.out → Phase lib reg mail w' := by
    intro cl queue waiting here about
    refine .waits typed item ?_ same (about ▸ partly)
    rw [waiting]
    by_cases own : mail.cl = cl
    · rw [← own, Function.update_self]
      exact here own.symm
    · rw [Function.update_of_ne own]
      exact member
  have rests : w'.waiting = w.waiting →
      lettersAbout mail.ub w'.bus.out = lettersAbout mail.ub w.bus.out → Phase lib reg mail w' :=
    fun waiting about => .waits typed item (waiting ▸ member) same (about ▸ partly)
  cases step with
  | rest cause rnd bus waiting mails => exact rests waiting (by rw [bus])
  | connect cred bus waiting mails =>
    exact rests waiting (bus ▸ (Bus.connect_spec cred w.bus).1.about nofun)
  | answer cl ub hdr data known' fresh other bus waiting mails =>
    have handled : Bus.Handled lib cl hdr data (w.on cl ub hdr data) _ _ := Bus.handled_handle other
    have through := handled.through (w.good.client_ne_zero known')
    exact rests waiting (bus ▸ through.adds.about fun here => fresh mail known (Option.some.inj here).symm)
  | lookup cl ub hdr data known' fresh typed' ret place goes waiting mails =>
    refine stays waiting (fun own => List.mem_append_left _ (own ▸ member)) ?_
    exact goes.posts.adds.about fun here => fresh mail known (Option.some.inj here).symm
  | resume cl first rest known' queue ret place goes waiting mails =>
    have once := filed.once cl
    have listed := filed.waiting cl first (by rw [queue]; exact List.mem_cons_self)
    rw [queue, List.map_cons, List.nodup_cons] at once
    by_cases here : first.ub = mail.ub
    · obtain rfl : ⟨cl, first.ub, first.hdr, first.data⟩ = mail :=
        Mail.eq_of_ub filed listed.1 known here
      refine .of_goes [] rest typed goes rfl partly ?_ ?_ ?_
      · rw [waiting, Function.update_self]
        rfl
      · intro other member' same'
        exact once.1 (List.mem_map.mpr ⟨other, member', same'⟩)
      intro other differs item' member' same'
      rw [waiting, Function.update_of_ne differs] at member'
      have owner := Mail.eq_of_ub filed (filed.waiting other item' member').1 known same'
      exact differs (congrArg Mail.cl owner)
    · refine stays waiting (fun own => ?_) (goes.posts.adds.about fun cause =>
        here (Option.some.inj cause))
      rw [← own, queue] at member
      rcases List.mem_cons.mp member with rfl | member
      · exact absurd same here
      · exact List.mem_append_right _ member
  | disconnect cl known' bus waiting mails =>
    obtain ⟨adds, clients, -⟩ := Bus.disconnect_spec lib cl w.bus
    have about : lettersAbout mail.ub w'.bus.out = lettersAbout mail.ub w.bus.out :=
      bus ▸ adds.about nofun
    by_cases own : cl = mail.cl
    · refine .done (.of_unfinished typed ?_ (about ▸ partly)) fun other item' member' same' => ?_
      · rw [bus]
        exact fun has => (clients mail.cl has).2 own.symm
      rw [waiting] at member'
      by_cases differs : other = cl
      · rw [differs, Function.update_self] at member'
        cases member'
      · rw [Function.update_of_ne differs] at member'
        have owner := Mail.eq_of_ub filed (filed.waiting other item' member').1 known same'
        exact differs ((congrArg Mail.cl owner).trans own.symm)
    · exact stays waiting (fun same' => absurd same' own) about
  | aclLoad host dir fault bus waiting mails =>
    exact rests waiting (bus ▸ (Bus.aclLoad_spec lib host dir fault w.bus).1.about nofun)

/-- What is kept about a message after it was received. -/
structure Followed (lib : Libubox) (reg : Registry) (mail : Mail) (w : World) : Prop where
  filed : w.Filed
  known : mail ∈ w.mails
  below : mail.cl < w.bus.reg.brk
  phase : Phase lib reg mail w

theorem Followed.begin (filed : w.Filed) (step : World.Step lib w w')
    (received : w'.mails = w.mails ++ [mail]) : Followed lib w.bus.reg mail w' := by
  refine ⟨filed.step step, by rw [received]; simp, ?_, Phase.begin filed step received⟩
  have owner : w.bus.reg.HasClient mail.cl := by
    cases step with
    | answer cl ub hdr data known fresh other bus waiting mails =>
      obtain rfl : mail = ⟨cl, ub, hdr, data⟩ := by simpa using received.symm.trans mails
      exact known
    | lookup cl ub hdr data known fresh typed ret place goes waiting mails =>
      obtain rfl : mail = ⟨cl, ub, hdr, data⟩ := by simpa using received.symm.trans mails
      exact known
    | _ =>
      rename_i mails
      rw [mails] at received
      simp at received
  exact (w.good.clients.lt_of_has owner).trans_le step.round.clients.1

theorem Followed.step (followed : Followed lib reg mail w) (step : World.Step lib w w') :
    Followed lib reg mail w' := by
  obtain ⟨filed, known, below, phase⟩ := followed
  refine ⟨filed.step step, ?_, below.trans_le step.round.clients.1, ?_⟩
  · obtain mails | ⟨_, mails, -⟩ := step.mails
    · rw [mails]
      exact known
    · rw [mails]
      exact List.mem_append_left _ known
  · cases phase with
    | done discipline free => exact Phase.step_done known below step discipline free
    | waits typed item member same partly =>
      exact Phase.step_waits filed known step typed member same partly

end Phase

/-! ### Every run in which memory lasts -/

section Sound

variable {lib : Libubox} {s s₁ s' : State} {mail : Mail}

theorem filed_init : (State.init.world good_init).Filed := by
  refine ⟨List.nodup_nil, fun cl item member => ?_, fun cl => ?_, nofun⟩
  · cases member
  · exact List.nodup_nil

theorem Sound.filed (sound : Sound lib s) : sound.world.Filed :=
  Sound.induction (P := World.Filed) filed_init (fun _ _ step filed => filed.step step) sound

theorem Sound.followed (sound : Sound lib s) (move : SoundMove lib s s₁)
    (received : acceptedMails s₁.trace = acceptedMails s.trace ++ [mail])
    (later : ReflTransGen (SoundMove lib) s₁ s') :
    ∃ sound' : Sound lib s', Followed lib s.reg mail sound'.world := by
  induction later with
  | refl => exact ⟨sound.tail move, Followed.begin sound.filed (sound.step move) received⟩
  | tail before next ih =>
    obtain ⟨sound', followed⟩ := ih
    exact ⟨sound'.tail next, followed.step (sound'.step next)⟩

/-- **Reply discipline.** Each message that is received leads to the letters that its kind asks for, in
every later state, as long as memory lasts. A lookup without a status is in the queue of its client, or
the client is gone. -/
theorem reply_discipline (sound : Sound lib s) (move : SoundMove lib s s₁)
    (received : acceptedMails s₁.trace = acceptedMails s.trace ++ [mail])
    (later : ReflTransGen (SoundMove lib) s₁ s') :
    Discipline lib s.reg mail (¬ s'.reg.HasClient mail.cl ∨
        ∃ cmd ∈ (s'.sock mail.cl).cmdQueue, cmd.msg = mail.ub)
      (lettersAbout mail.ub (letters s'.trace)) := by
  obtain ⟨sound', -, -, -, phase⟩ := sound.followed move received later
  cases phase with
  | done discipline free => exact discipline.mono Or.inl
  | waits typed item member same partly =>
    refine .of_unfinished typed (Or.inr ?_) partly
    have queued : item ∈ s'.waiting mail.cl := member
    unfold State.waiting at queued
    split at queued
    · obtain ⟨cmd, inside, rfl⟩ := List.mem_map.mp queued
      exact ⟨cmd, inside, same⟩
    · cases queued

theorem received_body (inv : Inv lib [] s) (known : s.reg.HasClient cl)
    (pending : (s.rx cl).pendingMsg = some ub) (out : ReadOutcome)
    (more : (acceptedMails (recvBody lib cl ub out s).2.trace).length ≠ (acceptedMails s.trace).length) :
    ∃ mail,
      acceptedMails (recvBody lib cl ub out s).2.trace = acceptedMails s.trace ++ [mail] := by
  obtain same | ⟨count, ⟨-, same⟩ | ⟨-, same⟩ | ⟨-, same⟩⟩ := recvBody_cases lib cl ub out s
  · exact absurd (by rw [same]) more
  · exact absurd (by rw [same]; rfl) more
  · exact absurd (by rw [same]; rfl) more
  have accepts := accepts_acceptMessage (inv_gotBody inv known count) known
    (pending_gotBody pending count)
  rw [same]
  exact ⟨_, accepts.mails⟩

/-- A client calls an object of another client; the rest of its message is not read yet. -/
def forwardRun (allocs : List Bool) : List Input :=
  [connects rootCred 5000, receives 3 (Blob.message .addObject 1 0 []) false, connects rootCred 6000,
    { action := .client 5 false false (Blob.message .invoke 7 4001
        [.int32 .objid 4001, .string .method (cstr "m")]) [] [.got 11 false, .again]
      allocs }]

/-- A message is a call of the object 4001. -/
def callsFoo (mail : Mail) : Bool :=
  mail.hdr.type = MsgType.invoke.code && mail.cl = 5 && mail.ub = 6 &&
    (ubusParseMsg Blob.libubox mail.data .objid).map Blob.libubox.blobGetU32 = some 4001

theorem callsFoo_spec {trace : List Event} {before : List Mail}
    (received : acceptedMails trace = before ++ [mail])
    (last : (acceptedMails trace).getLast?.map callsFoo = some true) :
    mail.hdr.type = MsgType.invoke.code ∧ mail.ub = 6 ∧
      ∃ objid, ubusParseMsg Blob.libubox mail.data .objid = some objid ∧
        Blob.libubox.blobGetU32 objid = 4001 := by
  rw [received, List.getLast?_concat, Option.map_some, Option.some_inj] at last
  simp only [callsFoo, Bool.and_eq_true, decide_eq_true_eq] at last
  obtain ⟨⟨⟨typed, -⟩, ub⟩, parsed⟩ := last
  obtain ⟨objid, hasObjid, named⟩ := Option.map_eq_some_iff.mp parsed
  exact ⟨typed, ub, objid, hasObjid, named⟩

theorem reply_discipline_call : ∃ s s₁ mail, Sound Blob.libubox s ∧ SoundMove Blob.libubox s s₁ ∧
    acceptedMails s₁.trace = acceptedMails s.trace ++ [mail] ∧ ∃ letter,
      lettersAbout mail.ub (letters s₁.trace) = [letter] ∧ letter.dest = 3 := by
  obtain ⟨s, start⟩ : ∃ s, run Blob.libubox (forwardRun []) State.init = s := ⟨_, rfl⟩
  have sound : Sound Blob.libubox s := start ▸ sound_run Blob.libubox (forwardRun []) (by decide)
  have known : s.reg.HasClient 5 := by
    rw [← start]
    decide +kernel
  have pending : (s.rx 5).pendingMsg = some 6 := by
    rw [← start]
    decide +kernel
  have funded : Funded s := by
    rw [← start]
    unfold Funded
    decide +kernel
  obtain ⟨mail, received⟩ := received_body sound.inv known pending (.got 1000 false) (by
    rw [← start]
    decide +kernel)
  obtain ⟨typed, ub, objid, hasObjid, named⟩ := callsFoo_spec received (by
    rw [← start]
    decide +kernel)
  have types : (lettersAbout mail.ub (letters (recvBody Blob.libubox 5 6 (.got 1000 false)
      s).2.trace)).map (fun letter => letter.hdr.type) = [MsgType.invoke.code] := by
    rw [ub, ← start]
    decide +kernel
  have move : SoundMove Blob.libubox s _ := ⟨.body known pending (.got 1000 false), funded⟩
  have discipline := reply_discipline sound move received .refl
  refine ⟨s, _, mail, sound, move, received, ?_⟩
  obtain ⟨cause, code, -, sent⟩ | ⟨letter, sent, dest, -⟩ := discipline.call typed objid 4 3 hasObjid (by
      rw [named, ← start]
      decide +kernel) (by
    rw [← start]
    decide +kernel)
  · rw [sent] at types
    cases types
  · exact ⟨letter, sent, dest⟩

/-- **A call is lost** when memory for the forwarded message is missing: nobody is told. -/
theorem call_lost : ∃ s s₁ mail, Reachable Blob.libubox s ∧ Move Blob.libubox s s₁ ∧
    acceptedMails s₁.trace = acceptedMails s.trace ++ [mail] ∧
    ¬ Discipline Blob.libubox s.reg mail (¬ s₁.reg.HasClient mail.cl ∨
        ∃ cmd ∈ (s₁.sock mail.cl).cmdQueue, cmd.msg = mail.ub)
      (lettersAbout mail.ub (letters s₁.trace)) := by
  obtain ⟨s, start⟩ : ∃ s, run Blob.libubox (forwardRun [true, false]) State.init = s := ⟨_, rfl⟩
  have reachable : Reachable Blob.libubox s := start ▸ reachable_run Blob.libubox _
  have known : s.reg.HasClient 5 := by
    rw [← start]
    decide +kernel
  have pending : (s.rx 5).pendingMsg = some 6 := by
    rw [← start]
    decide +kernel
  obtain ⟨mail, received⟩ := received_body reachable.inv known pending (.got 1000 false) (by
    rw [← start]
    decide +kernel)
  obtain ⟨typed, ub, objid, hasObjid, named⟩ := callsFoo_spec received (by
    rw [← start]
    decide +kernel)
  refine ⟨s, _, mail, reachable, .body known pending (.got 1000 false), received, fun discipline => ?_⟩
  have silent : lettersAbout mail.ub
      (letters (recvBody Blob.libubox 5 6 (.got 1000 false) s).2.trace) = [] := by
    rw [ub, ← start]
    exact List.isEmpty_iff.mp (by decide +kernel)
  rw [silent] at discipline
  obtain ⟨_, _, -, sent⟩ | ⟨_, sent, -⟩ := discipline.call typed objid 4 3 hasObjid (by
      rw [named, ← start]
      decide +kernel) (by
    rw [← start]
    decide +kernel)
  · cases sent
  · cases sent

end Sound

end Ubus
