import MqttBroker.Proofs.Broker.Answering
import MqttBroker.Proofs.Connection.Reception
import MqttBroker.Proofs.Network.Exchanges
import MqttBroker.Proofs.Packet.Trimmed
/-!
Requests and their answers. Whatever else goes on in the broker, the control packets that come into
an outbox while the packets of one connection are handled are the answers that are due to them, one
after the other, in bytes that the client reads as these.
-/

namespace MqttBroker

namespace Packet

variable {p answer : Packet} {level : Level} {bytes : Bytes}

/-- The packet is sent as `bytes`, and is read where they stand, less what its level leaves off the
wire. -/
structure ArrivesAs (p : Packet) (level : Level) (bytes : Bytes) : Prop where
  encode_eq : p.encode level = .ok bytes
  decode_eq (rest : Bytes) (limit : Nat) : bytes.length ≤ limit →
    decode [bytes ++ rest] level limit = .ok (some (p.trim level, bytes.length))

theorem arrivesAs_of_encode (h : (p.trim level).BodyCanonical level)
    (hbytes : p.encode level = .ok bytes) : p.ArrivesAs level bytes where
  encode_eq := hbytes
  decode_eq rest limit hle := by
    have hwritten := (p.encode_trim level).trans hbytes
    have hlength := length_of_encode hwritten
    rw [hlength] at hle ⊢
    rw [decode_eq_decodeFrom, List.flatten_singleton, decodeFrom_of_encode h hwritten, if_pos hle]

/-- What answers a packet that has been read can be read itself. -/
theorem Due.bodyCanonical_trim {v5 : Bool} {s : Session} {takers : Nat} {answer? : Option Packet}
    {level' : Level} (h : p.Due v5 s takers answer?) (hp : p.BodyCanonical level')
    (hanswer : answer ∈ answer?) (level : Level) : (answer.trim level).BodyCanonical level := by
  have hnil (v5 : Bool) : Properties.Canonical v5 [] :=
    ⟨fun p hmem => absurd hmem List.not_mem_nil, fun _ => rfl⟩
  have hack {id : UInt16} (hid : id ≠ 0) (reason : UInt8) :
      ((Ack.withReason id reason).trim level.isV5).Canonical level.isV5 := by
    refine ⟨hid, fun hbelow => ?_, ?_⟩
    · rw [hbelow]
      rfl
    · cases level.isV5 <;> exact hnil _
  have hpublished {q : Publish} {id : UInt16} (hq : q.Canonical level'.isV5)
      (hid : q.packetId = some id) : id ≠ 0 := fun hzero => hq.packetId_ne_zero (hzero ▸ hid)
  have hunknown {a b : Packet} (hb : b ∈ if v5 then some a else none) : b = a :=
    (Option.some.inj (Option.ite_none_right_eq_some.1 hb).2).symm
  cases h with
  | atMostOnce | refused | pubAck | pubComp | disconnect => cases hanswer
  | atLeastOnce hqos hid | exactlyOnce hqos hid =>
    cases hanswer
    exact hack (hpublished hp hid) _
  | released | received =>
    cases hanswer
    exact hack hp.packetId_ne_zero 0
  | notPending | notInFlight =>
    cases hunknown hanswer
    exact hack hp.packetId_ne_zero _
  | subscribe =>
    cases hanswer
    refine ⟨hp.packetId_ne_zero, ?_⟩
    cases level.isV5 <;> exact hnil _
  | unsubscribe =>
    cases hanswer
    have hid := hp.packetId_ne_zero
    simp only [trim, UnsubAck.trim]
    cases hv5 : level.isV5 with
    | true => exact ⟨hid, hnil _, fun hbelow => Bool.noConfusion (hv5.symm.trans hbelow)⟩
    | false => exact ⟨hid, hnil _, fun _ => rfl⟩
  | pingReq =>
    cases hanswer
    trivial

end Packet

namespace Connection

variable {now : Nat} {closeFirst : Bool} {b : Broker} {c : Connection} {turn : Turn} {β : Binding}
  {p : Packet}

theorem bodyCanonical_of_handles? (h : c.handles? closeFirst b = some (β, p)) :
    p.BodyCanonical c.inbox.level := by
  obtain ⟨c', hreceive⟩ := receive_of_handles? h
  exact bodyCanonical_of_receive hreceive

theorem broker_of_handle (hhandles : c.handles? closeFirst b = some (β, p))
    (hok : (b.handle β p).Succeeds) (h : c.step now closeFirst b = some turn) :
    turn.broker = (b.handle β p).broker := by
  obtain ⟨c', w, rfl⟩ := turn_of_handles? hhandles h
  rw [handle]
  cases hverdict : (b.handle β p).verdict with
  | proceed | done => rfl
  | failed error => exact absurd hverdict (hok error)

end Connection

/-! ### One packet -/

namespace Handling

variable {x : Handling}

def level (x : Handling) : Level := x.binding.link.level

/-- How the broker and the connection stand when the packet comes. -/
def begun (x : Handling) : Handled := { broker := x.before, binding := x.binding }

def fails (x : Handling) : Bool :=
  match (x.begun.onPacket x.packet).verdict with
  | .failed _ => true
  | _ => false

/-- The answer is due to the packet. -/
def Owes (x : Handling) (answer? : Option Packet) : Prop :=
  x.packet.Due x.begun.v5 x.begun.session (x.begun.takers x.packet) answer?

/-- The control packets that have come into the outbox once the packet has been handled. -/
def posted (x : Handling) (id : SessionId) : List Bytes :=
  ((x.after.session id).outbox.items.drop (x.before.session id).outbox.items.length).filterMap
    Outgoing.control?

/-- What handling a packet comes to besides its answer: nothing goes out of the outboxes, no other
client gets a control packet, and a SUBSCRIBE has taken effect. -/
structure Conforms (x : Handling) : Prop where
  kept (id : SessionId) : (x.before.session id).outbox.items <+: (x.after.session id).outbox.items
  others : ∀ id ≠ x.session, x.posted id = []
  /-- A valid filter is held with the QoS of the last request for it. -/
  held (p : Subscribe) : x.packet = .subscribe p →
    ∀ filter, Topic.isValidFilter filter = true →
      (x.after.session x.session).subscriptions.get? filter =
        (p.requests.reverse.lookup filter).or
          ((x.before.session x.session).subscriptions.get? filter)

theorem succeeds_of_fails (h : x.fails = false) : (x.begun.onPacket x.packet).Succeeds := by
  intro error hverdict
  rw [fails, hverdict] at h
  cases h

end Handling

theorem Session.Gains.posted_eq {x : Handling} {id : SessionId} {frames : List Bytes}
    (h : (x.before.session id).Gains frames (x.after.session id)) : x.posted id = frames := by
  obtain ⟨items, hitems, rfl⟩ := h
  rw [Handling.posted, hitems, List.drop_left]

/-! ### One connection -/

/-- `frames` are the answers to the packets, in the order of these. -/
inductive Answered : List Handling → List Bytes → Prop where
  | nil : Answered [] []
  | silent {x : Handling} {xs : List Handling} {frames : List Bytes} (howes : x.Owes none)
    (hxs : Answered xs frames) : Answered (x :: xs) frames
  | answer {x : Handling} {xs : List Handling} {answer : Packet} {bytes : Bytes}
    {frames : List Bytes} (howes : x.Owes (some answer)) (harrives : answer.ArrivesAs x.level bytes)
    (hxs : Answered xs frames) : Answered (x :: xs) (bytes :: frames)

namespace Network

variable {limits : Limits} {n n' : Network} {move : Move} {x : Handling}

/-- The packets of the `i`-th connection that are handled in a run without a failure, in order. -/
def served (moves : List Move) (n : Network) (i : Nat) : List Handling :=
  (handlings moves n).filter fun x => x.connection == i && !x.fails

theorem bodyCanonical_of_handling (hx : n.handling? move n' = some x) :
    ∃ level, x.packet.BodyCanonical level := by
  cases move with
  | step i now closeFirst =>
    obtain ⟨c, -, hx⟩ := Option.bind_eq_some_iff.1 hx
    obtain ⟨⟨β, p⟩, hhandles, rfl⟩ := Option.map_eq_some_iff.1 hx
    exact ⟨c.inbox.level, Connection.bodyCanonical_of_handles? hhandles⟩
  | accept | client | write | publish | shutdown => cases hx

theorem after_of_handling (hx : n.handling? move n' = some x) (hstep : n.step move = some n')
    (hok : x.fails = false) : x.after = (x.begun.onPacket x.packet).broker := by
  cases move with
  | step i now closeFirst =>
    obtain ⟨c, hc, hstep⟩ := Option.bind_eq_some_iff.1 hstep
    obtain ⟨turn, hturn, rfl⟩ := Option.map_eq_some_iff.1 hstep
    rw [handling?_step hc] at hx
    obtain ⟨⟨β, p⟩, hhandles, rfl⟩ := Option.map_eq_some_iff.1 hx
    exact Connection.broker_of_handle hhandles (Handling.succeeds_of_fails hok) hturn
  | accept | client | write | publish | shutdown => cases hx

namespace Sound

variable {xs : List Handling} {frames : List Bytes}

theorem isSeated_of_handling (h : n.Sound limits) (hx : n.handling? move n' = some x)
    (hstep : n.step move = some n') : x.begun.IsSeated := by
  rw [Handled.IsSeated, Handling.begun, (h.handling_of_step hstep hx).1]
  exact h.seated _ _ (binding?_of_handling hx)

/-- What comes into the outboxes for a packet is what answers it, and PUBLISHes. -/
theorem gains_of_handling (h : n.Sound limits) (hx : n.handling? move n' = some x)
    (hstep : n.step move = some n') (hok : x.fails = false) :
    ∃ answer? frames, x.Owes answer? ∧
      List.Forall₂ (fun p w => p.encode x.level = .ok w) answer?.toList frames ∧
      ∀ id, (x.before.session id).Gains (if id = x.session then frames else [])
        (x.after.session id) := by
  have hfiled := (h.handling_of_step hstep hx).2.2.filed
  obtain ⟨answer?, howes, frames, hframes, hposts⟩ := Handled.obliges_onPacket hfiled
    (h.isSeated_of_handling hx hstep) x.packet (Handling.succeeds_of_fails hok)
  rw [← after_of_handling hx hstep hok] at hposts
  exact ⟨answer?, frames, howes, hframes, hposts⟩

theorem answered_cons (h : n.Sound limits) (hx : n.handling? move n' = some x)
    (hstep : n.step move = some n') (hok : x.fails = false) (hxs : Answered xs frames) :
    Answered (x :: xs) (x.posted x.session ++ frames) := by
  obtain ⟨answer?, posted, howes, hposted, hgains⟩ := h.gains_of_handling hx hstep hok
  obtain ⟨level, hcanonical⟩ := bodyCanonical_of_handling hx
  rw [(hgains x.session).posted_eq, if_pos rfl]
  cases answer? with
  | none =>
    cases hposted
    exact .silent howes hxs
  | some answer =>
    obtain ⟨bytes, _, hbytes, hnil, rfl⟩ := List.forall₂_cons_left_iff.1 hposted
    cases hnil
    have hread := howes.bodyCanonical_trim hcanonical (Option.mem_some_self answer) x.level
    exact .answer howes (Packet.arrivesAs_of_encode hread hbytes) hxs

theorem conforms_of_handling (h : n.Sound limits) (hx : n.handling? move n' = some x)
    (hstep : n.step move = some n') (hok : x.fails = false) : x.Conforms := by
  obtain ⟨_, _, -, -, hgains⟩ := h.gains_of_handling hx hstep hok
  constructor
  case kept =>
    intro id
    obtain ⟨items, hitems, -⟩ := hgains id
    exact ⟨items, hitems.symm⟩
  case others =>
    intro id hid
    rw [(hgains id).posted_eq, if_neg hid]
  case held =>
    intro p hp filter hvalid
    have hsession : (x.begun.onPacket x.packet).binding.session = x.session :=
      (h.handling_of_step hstep hx).2.2.takesIn.session
    have hown : x.after.session x.session = (x.begun.onPacket x.packet).session := by
      rw [after_of_handling hx hstep hok, Handled.session, hsession]
    have hheld := Handled.subscriptions_onSubscribe (h.isSeated_of_handling hx hstep) p
    rw [hown, hp]
    exact (congrArg (·.get? filter) hheld).trans (Subscriptions.get?_subscribe _ _ hvalid)

end Sound

/-- Every request of a connection that is handled without a failure gets its answer, once and in its
turn, and the client gets no other control packet for them. -/
theorem answered_of_handlings (limits : Limits) (credentials : Option Authenticator)
    (uuids : Nat → BitVec 128) (moves : List Move) (i : Nat) :
    let xs := served moves (start limits credentials uuids) i
    Answered xs (xs.flatMap fun x => x.posted x.session) ∧ ∀ x ∈ xs, x.Conforms := by
  have hsound := start_sound limits credentials uuids
  intro xs
  have hmem : ∀ x ∈ xs, x.fails = false ∧ ∃ (n : Network) (move : Move) (n' : Network),
      n.Sound limits ∧ n.step move = some n' ∧ n.handling? move n' = some x := by
    intro x hx
    obtain ⟨hx, hserved⟩ := List.mem_filter.1 hx
    obtain ⟨-, hok⟩ : x.connection = i ∧ x.fails = false := by simpa using hserved
    obtain ⟨n, move, n', hpasses, hhandling⟩ := passes_of_mem_handlings hx
    exact ⟨hok, n, move, n', hsound.of_passes hpasses, hpasses.step_eq, hhandling⟩
  constructor
  · clear_value xs
    induction xs with
    | nil => exact .nil
    | cons x xs ih =>
      obtain ⟨hok, n, move, n', h, hstep, hx⟩ := hmem x (List.mem_cons_self ..)
      exact h.answered_cons hx hstep hok (ih fun y hy => hmem y (List.mem_cons_of_mem x hy))
  · intro x hx
    obtain ⟨hok, n, move, n', h, hstep, hx⟩ := hmem x hx
    exact h.conforms_of_handling hx hstep hok

/-- A client asks for "a" twice, with a filter that is not valid in between, and then pings. -/
example :
    let moves : List Move := .accept 0 64 ::
      sending 0 [0x10, 0x0D, 0, 4, 0x4D, 0x51, 0x54, 0x54, 4, 0, 0, 0, 0, 1, 0x78] ++
      [.step 0 0 false] ++ sending 0 [0x82, 0x0D, 0, 9, 0, 1, 0x61, 1, 0, 0, 0, 0, 1, 0x61, 2] ++
      sending 0 [0xC0, 0]
    (served moves (start {}) 0).flatMap (fun x => x.posted x.session) =
      [[0x90, 5, 0, 9, 1, 0x80, 2], [0xD0, 0]] := by
  decide +kernel

end Network

end MqttBroker
