import MqttBroker.Proofs.Broker.Replies
import MqttBroker.Proofs.Network.Outcome
import MqttBroker.Proofs.Network.Topics
import MqttBroker.Proofs.Network.Windows
import MqttBroker.Proofs.Writer.Laden
/-!
Whatever clients send, the broker has nothing to write that cannot be written. What comes in is
bounded by the decoder and the largest size; what waits in the sessions and is in flight is made
from that, and no connection ends because a packet has no encoding.
-/

namespace MqttBroker

/-- What handling a packet dispatches is the message that the packet brings. -/
theorem Packet.mem_message?_of_takeIn {most : Nat} {pending : List UInt16} {p : Packet}
    {m : Message} (hm : m ∈ (p.takeIn most pending).2) : m ∈ p.message? := by
  cases p with
  | publish q =>
    have hq : m ∈ [Message.ofPublish q] → m ∈ message? (publish q) := by
      intro hm
      rw [List.mem_singleton.1 hm]
      rfl
    simp only [takeIn, Publish.takeIn] at hm
    grind
  | _ => cases hm

theorem Window.Laden.acknowledge {w : Window} (h : w.Laden) (v5 : Bool) (p : Packet) :
    (p.acknowledge v5 w).Laden := by
  cases p with
  | pubAck | pubRec | pubComp => exact h.reply _ _
  | _ => exact h

namespace Connection

variable {now : Nat} {closeFirst : Bool} {look : Writer.Look} {b : Broker} {c c' : Connection}
  {turn : Turn} {β : Binding} {p : Packet} {most : Nat}

theorem readable_of_receive (hmost : c.inbox.maxPacketSize ≤ Varint.limit)
    (h : c.receive = .packet p c') : p.Readable c.inbox.level := by
  obtain ⟨bytes, n, hdecode⟩ := decodeFrom_of_receive h
  exact Packet.readable_of_decodeFrom hmost hdecode

theorem readable_of_handles? (hmost : c.inbox.maxPacketSize ≤ Varint.limit)
    (h : c.handles? closeFirst b = some (β, p)) : p.Readable c.inbox.level := by
  obtain ⟨c', hreceive⟩ := receive_of_handles? h
  exact readable_of_receive hmost hreceive

/-! ### What a connection ends with -/

/-- The connection reads packets up to that size, and is not known to end because a packet has no
encoding. -/
structure Encodes (most : Nat) (c : Connection) : Prop where
  maxPacketSize_eq : c.inbox.maxPacketSize = most
  result : ∀ cause, c.result? ≠ some (.error (.encode cause))

theorem encodes_of_undecided (hmost : c.inbox.maxPacketSize = most) (h : c.result? = none) :
    c.Encodes most := by
  refine ⟨hmost, ?_⟩
  intro cause hresult
  cases h.symm.trans hresult

theorem encodes_of_result {result : Result} (hmost : c.inbox.maxPacketSize = most)
    (h : c.result? = some result) (hresult : ∀ cause, result ≠ .error (.encode cause)) :
    c.Encodes most := by
  refine ⟨hmost, ?_⟩
  intro cause hcause
  apply hresult cause
  rw [h] at hcause
  exact Option.some.inj hcause

theorem encodes_conclude (hmost : c.inbox.maxPacketSize = most) (b : Broker) (β : Binding)
    {result : Result} (hresult : ∀ cause, result ≠ .error (.encode cause)) :
    (c.conclude b β result).connection.Encodes most := by
  refine encodes_of_result ?_ rfl ?_
  · exact hmost
  · intro cause
    cases result with
    | error error => exact hresult cause
    | ok =>
      dsimp only
      unfold resultOf
      split <;> exact nofun

theorem encode_ne_of_receive {error : SessionError} (h : c.receive = .failed error) (cause) :
    (.error error : Result) ≠ .error (.encode cause) := by
  have hreceives := c.receives_receive
  rw [h] at hreceives
  cases hreceives with
  | malformed | cut => exact nofun

theorem maxPacketSize_of_receive (h : c.receive = .packet p c') :
    c'.inbox.maxPacketSize = c.inbox.maxPacketSize := by
  have hreceives := c.receives_receive
  rw [h] at hreceives
  cases hreceives
  rfl

theorem maxPacketSize_of_more (h : c.receive = .more c') :
    c'.inbox.maxPacketSize = c.inbox.maxPacketSize := by
  have hreceives := c.receives_receive
  rw [h] at hreceives
  cases hreceives
  rfl

/-- An accepted CONNECT can be answered. -/
theorem encodes_bind (hmost : c.inbox.maxPacketSize = most) (b : Broker) (connect : Connect)
    {accepted : Accepted} (hnamed : accepted.IsNamed) :
    (c.bind b connect accepted).connection.Encodes most := by
  unfold bind
  dsimp only
  split
  · exact encodes_of_undecided hmost rfl
  · -- The client id that is given back was checked or made up, and fits either way.
    next hcause =>
    obtain ⟨bytes, hbytes⟩ := (Admission.canonical_connAck hnamed _ _).exists_encoded
    cases hcause.symm.trans hbytes

theorem encodes_meet (hmost : c.inbox.maxPacketSize = most) (b : Broker) (connect : Connect) :
    (c.meet b connect).connection.Encodes most := by
  unfold meet
  split
  · exact encodes_of_undecided hmost rfl
  · next hverdict =>
    have hnamed := Broker.isNamed_of_validate hverdict
    dsimp only
    split
    · apply encodes_bind
      · exact hmost
      · exact hnamed
    · exact encodes_of_undecided hmost rfl

theorem encodes_of_await {deadline : Nat} (hmost : c.inbox.maxPacketSize = most)
    (hphase : c.phase = .awaiting deadline) (h : c.await now b deadline = some turn) :
    turn.connection.Encodes most := by
  unfold await at h
  split at h
  · next hreceive =>
    cases h
    apply encodes_meet
    exact (maxPacketSize_of_receive hreceive).trans hmost
  · next c' _ hreceive =>
    cases h
    have hmost' := (maxPacketSize_of_receive hreceive).trans hmost
    exact encodes_of_result hmost' rfl fun _ heq => by cases heq
  · next hreceive =>
    cases h
    exact encodes_of_result hmost rfl (encode_ne_of_receive hreceive)
  · cases h
    exact encodes_of_result hmost rfl fun _ heq => by cases heq
  · next hmore =>
    cases h
    apply encodes_of_undecided ((maxPacketSize_of_more hmore).trans hmost)
    rw [result?, receive_more hmore, hphase]
  · split at h
    · cases h
      exact encodes_of_result hmost rfl fun _ heq => by cases heq
    · cases h

theorem encodes_of_refuse {rest : Bytes} {cause : Refusal} (hmost : c.inbox.maxPacketSize = most)
    (h : c.refuse b rest cause = some turn) : turn.connection.Encodes most := by
  unfold refuse at h
  split at h
  · cases h
    exact encodes_of_result hmost rfl nofun
  · split at h
    · cases h
      exact encodes_of_result hmost rfl nofun
    · cases h
    · cases h
      exact encodes_of_undecided hmost rfl

theorem encodes_of_greet {rest : Bytes} (hmost : c.inbox.maxPacketSize = most)
    (h : c.greet now closeFirst b β rest = some turn) : turn.connection.Encodes most := by
  unfold greet at h
  dsimp only at h
  split at h
  · cases h
    exact encodes_conclude hmost _ _ nofun
  split at h
  · cases h
    exact encodes_conclude hmost _ _ nofun
  · split at h
    · cases h
      exact encodes_conclude hmost _ _ nofun
    · cases h
  · split at h
    · cases h
      exact encodes_of_undecided hmost rfl
    · cases h
      exact encodes_of_undecided hmost rfl

theorem encodes_handle {level : Level} (hmost : c.inbox.maxPacketSize = most)
    (hp : p.Readable level) (w : Writer) : (c.handle now b β w p).connection.Encodes most := by
  have hverdict := b.encodes_handle β hp
  unfold handle
  dsimp only
  split
  · exact encodes_of_undecided hmost rfl
  · exact encodes_of_result hmost rfl nofun
  · next error herror =>
    refine encodes_of_result ?_ rfl ?_
    · exact hmost
    · intro cause hcause
      apply hverdict cause
      rw [herror, Except.error.inj hcause]

theorem encodes_of_serves {deadline : Option Nat} {w : Writer}
    (hmost : c.inbox.maxPacketSize = most) (hle : most ≤ Varint.limit)
    (hphase : c.phase = .serving β deadline w) (h : c.Serves now closeFirst b β w turn) :
    turn.connection.Encodes most := by
  cases h with
  | asked | finished | expired => exact encodes_of_result hmost rfl nofun
  | handle hreceive =>
    apply encodes_handle ((maxPacketSize_of_receive hreceive).trans hmost)
    exact readable_of_receive (hmost ▸ hle) hreceive
  | unreadable hreceive => exact encodes_of_result hmost rfl (encode_ne_of_receive hreceive)
  | read hmore =>
    apply encodes_of_undecided ((maxPacketSize_of_more hmore).trans hmost)
    rw [result?, receive_more hmore, hphase]

theorem encodes_of_step (hc : c.Encodes most) (hle : most ≤ Varint.limit)
    (hnamed : ∀ accepted ∈ c.waiting?, accepted.IsNamed)
    (h : c.step now closeFirst b = some turn) : turn.connection.Encodes most := by
  have hmost := hc.maxPacketSize_eq
  unfold step at h
  split at h
  · next hphase => exact encodes_of_await hmost hphase h
  · exact encodes_of_refuse hmost h
  · next hphase =>
    obtain ⟨-, h⟩ := Option.ite_none_right_eq_some.1 h
    cases h
    apply encodes_bind hmost
    apply hnamed
    rw [waiting?, hphase]
    rfl
  · exact encodes_of_greet hmost h
  · next hphase => exact encodes_of_serves hmost hle hphase (serves_of_serve h)
  · next hphase =>
    obtain ⟨-, h⟩ := Option.ite_none_right_eq_some.1 h
    cases h
    apply encodes_conclude hmost
    intro cause hcause
    apply hc.result cause
    rw [result?, hphase, hcause]
  · cases h

/-- What has come to the writer can be sent. -/
def IsLaden (c : Connection) : Prop := ∀ x ∈ c.writer?, x.2.phase.Laden

theorem isLaden_of_step (hc : c.IsLaden) (h : c.step now closeFirst b = some turn) :
    turn.connection.IsLaden := by
  rintro ⟨β', w⟩ hx
  rcases writer_of_step h hx with ⟨β, hw⟩ | ⟨-, rfl⟩
  · exact hc (β, w) hw
  · exact ⟨nofun, nofun⟩

end Connection

namespace Network

variable {limits : Limits} {n n' : Network} {move : Move} {moves : List Move}

/-- Whatever waits to be sent can be sent, and nothing has failed for want of an encoding. -/
structure Encodes (limits : Limits) (n : Network) : Prop where
  numbers : n.Numbers limits
  stocked : n.broker.Stocked Publication.Sendable Message.Sendable
  windows : ∀ id, (n.broker.windows id).Laden
  connections : ∀ c ∈ n.connections, c.Encodes limits.maxPacketSize
  taking : ∀ c ∈ n.connections, ∀ connect ∈ c.taking?, connect.Canonical
  laden : ∀ c ∈ n.connections, c.IsLaden

theorem start_encodes (limits : Limits) (credentials : Option Authenticator)
    (uuids : Nat → BitVec 128) :
    (start limits credentials uuids).Encodes limits where
  numbers := start_numbers limits credentials uuids
  stocked _ := Session.Stocked.fresh ..
  windows _ := Window.Laden.empty
  connections := by rintro _ ⟨⟩
  taking := by rintro _ ⟨⟩
  laden := by rintro _ ⟨⟩

namespace Encodes

theorem session (h : n.Encodes limits) (id : SessionId) : (n.broker.session id).Laden :=
  ⟨(h.stocked id).queued, h.windows id⟩

/-- What a turn of one connection does is fine if it is so for that connection. -/
theorem of_turn {i : Nat} {turn : Connection.Turn} (h : n.Encodes limits)
    (hnumbers : (n.withTurn i turn).Numbers limits)
    (hstocked : turn.broker.Stocked Publication.Sendable Message.Sendable)
    (hwindows : ∀ id, (turn.broker.windows id).Laden)
    (hconnection : turn.connection.Encodes limits.maxPacketSize)
    (htaking : ∀ connect ∈ turn.connection.taking?, connect.Canonical)
    (hladen : turn.connection.IsLaden) : (n.withTurn i turn).Encodes limits := by
  have hset : ∀ {P : Connection → Prop}, (∀ c ∈ n.connections, P c) → P turn.connection →
      ∀ c ∈ (n.withTurn i turn).connections, P c := by
    intro P hold hnew c hc
    rcases List.mem_or_eq_of_mem_set hc with hmem | rfl
    · exact hold c hmem
    · exact hnew
  exact ⟨hnumbers, hstocked, hwindows, hset h.connections hconnection, hset h.taking htaking,
    hset h.laden hladen⟩

theorem windows_update (h : n.Encodes limits) {w : Window} (hw : w.Laden) (id id' : SessionId) :
    (Function.update n.broker.windows id w id').Laden := by
  by_cases hid : id' = id
  · subst hid
    rwa [Function.update_self]
  · rw [Function.update_of_ne hid]
    exact h.windows id'

theorem step (h : n.Encodes limits) (hle : limits.maxPacketSize ≤ Varint.limit) {i now : Nat}
    {closeFirst : Bool} {c : Connection} {turn : Connection.Turn} (hc : n.connections[i]? = some c)
    (hturn : c.step now closeFirst n.broker = some turn)
    (hnumbers : (n.withTurn i turn).Numbers limits) : (n.withTurn i turn).Encodes limits := by
  have hmem := List.mem_of_getElem? hc
  have hsound := h.numbers.sound
  have hseated := fun β hβ => hsound.seated i β ((binding?_eq_some hc).trans hβ)
  have hnamed := hsound.named c hmem
  have hencodes := h.connections c hmem
  have hmost : c.inbox.maxPacketSize ≤ Varint.limit := hencodes.maxPacketSize_eq ▸ hle
  refine h.of_turn hnumbers ?_ ?_ (Connection.encodes_of_step hencodes hle hnamed hturn)
    (Connection.canonical_of_step (h.taking c hmem) hturn)
    (Connection.isLaden_of_step (h.laden c hmem) hturn)
  · apply Connection.stocked_of_step h.stocked hsound.filed hnamed _ _ _ hturn
    · intro connect hconnect w hw
      exact ((Connection.canonical_of_connect? (h.taking c hmem) hconnect).will w hw).sendable
    · intro β p hhandles m hm qos
      have hbefore := Connection.binding?_of_handles? hhandles
      have htakes := Connection.takesIn_of_handle (hseated β hbefore) p .rest
      rw [htakes.messages] at hm
      have hreadable := Connection.readable_of_handles? hmost hhandles
      exact (hreadable.sendable (Packet.mem_message?_of_takeIn hm)).publication qos
    · -- A will that is published on the way out came in with a CONNECT.
      intro _ β _ m hm qos
      exact ((h.stocked β.session).will m hm).publication qos
  · intro id
    rcases Connection.windows_of_step hsound.filed hseated hturn with
      ⟨-, hsame⟩ | ⟨β, p, -, hwindows⟩
    · rw [hsame]
      exact h.windows id
    · rw [hwindows]
      apply h.windows_update
      exact (h.windows β.session).acknowledge _ p

theorem write (h : n.Encodes limits) {i now : Nat} {look : Writer.Look} {c : Connection}
    {turn : Connection.Turn} (hc : n.connections[i]? = some c)
    (hturn : c.writeStep now look n.broker = some turn)
    (hnumbers : (n.withTurn i turn).Numbers limits) : (n.withTurn i turn).Encodes limits := by
  have hmem := List.mem_of_getElem? hc
  have hencodes := h.connections c hmem
  obtain ⟨hresult, hinbox⟩ := Connection.result?_of_writeStep hturn
  obtain ⟨β, w, turn', hwriter, hacts, hwriter', hasks⟩ := Connection.writes_of_writeStep hturn
  have hlimit := ((h.numbers.servable c hmem).writing _ hwriter).2
  obtain ⟨hwindow, hladen⟩ := Writer.laden_of_traffic (Writer.traffic_of_acts hacts)
    (h.session β.session) (h.laden c hmem _ hwriter) hlimit
  have hhand : ∀ p ∈ c.hand, p.Sendable := by
    rw [Connection.hand, hwriter]
    exact fun p hp => ((h.laden c hmem _ hwriter).hand p hp).toSendable
  refine h.of_turn hnumbers ?_ ?_ ⟨?_, ?_⟩ ?_ ?_
  · exact (Connection.stocked_of_writeStep h.stocked hhand hturn).1
  · intro id
    have hβ := (binding?_eq_some hc).trans (Connection.binding?_of_writer? hwriter)
    rw [Broker.windows_asks hasks, Broker.windows_putSession (h.numbers.sound.seated i β hβ)]
    exact h.windows_update hwindow _ id
  · rw [hinbox]
    exact hencodes.maxPacketSize_eq
  · rw [hresult]
    exact hencodes.result
  · exact Connection.keeps_canonical.writeStep (h.taking c hmem) hturn
  · intro x hx
    cases hwriter'.symm.trans hx
    exact hladen

theorem of_step (h : n.Encodes limits) (hle : limits.maxPacketSize ≤ Varint.limit)
    (hpublished : ∀ m, move = .publish m → m.Sendable) (hstep : n.step move = some n') :
    n'.Encodes limits := by
  have hnumbers := h.numbers.of_step hstep
  cases move with
  | accept now capacity =>
    cases hstep
    let fresh := Connection.accept n.broker.limits now capacity
    have hencodes : fresh.Encodes limits.maxPacketSize :=
      Connection.encodes_of_undecided (congrArg Limits.maxPacketSize h.numbers.sound.limits_eq) rfl
    have htaking : ∀ connect ∈ fresh.taking?, connect.Canonical := by rintro _ ⟨⟩
    have hladen : fresh.IsLaden := by rintro _ ⟨⟩
    have hnew : ∀ {P : Connection → Prop}, (∀ c ∈ n.connections, P c) → P fresh →
        ∀ c ∈ n.connections ++ [fresh], P c := by
      intro P hold hnew c hc
      rcases List.mem_append.1 hc with hmem | hlast
      · exact hold c hmem
      · rwa [List.mem_singleton.1 hlast]
    exact ⟨hnumbers, h.stocked, h.windows, hnew h.connections hencodes, hnew h.taking htaking,
      hnew h.laden hladen⟩
  | client i inbound outbound =>
    obtain ⟨c, hc, rfl⟩ := Option.map_eq_some_iff.1 hstep
    have hmem := List.mem_of_getElem? hc
    let turn : Connection.Turn :=
      { broker := n.broker, connection := { c with inbound, outbound } }
    have hconnection : turn.connection.Encodes limits.maxPacketSize :=
      ⟨(h.connections c hmem).maxPacketSize_eq, (h.connections c hmem).result⟩
    have hturn : (n.withTurn i turn).Encodes limits :=
      h.of_turn hnumbers h.stocked h.windows hconnection (h.taking c hmem) (h.laden c hmem)
    exact hturn
  | step i now closeFirst =>
    obtain ⟨c, hc, hstep⟩ := Option.bind_eq_some_iff.1 hstep
    obtain ⟨turn, hturn, rfl⟩ := Option.map_eq_some_iff.1 hstep
    exact h.step hle hc hturn hnumbers
  | write i now look =>
    obtain ⟨c, hc, hstep⟩ := Option.bind_eq_some_iff.1 hstep
    obtain ⟨turn, hturn, rfl⟩ := Option.map_eq_some_iff.1 hstep
    exact h.write hc hturn hnumbers
  | publish m =>
    cases hstep
    refine ⟨hnumbers, ?_, ?_, h.connections, h.taking, h.laden⟩
    · exact h.stocked.dispatch fun qos => (hpublished m rfl).publication qos
    · rw [Broker.windows_dispatch]
      exact h.windows
  | shutdown =>
    cases hstep
    refine ⟨hnumbers, h.stocked.shutdown, ?_, h.connections, h.taking, h.laden⟩
    rw [Broker.windows_shutdown]
    exact h.windows

theorem of_run (h : n.Encodes limits) (hle : limits.maxPacketSize ≤ Varint.limit)
    (hpublished : ∀ m, .publish m ∈ moves → m.Sendable) (hrun : run moves n = some n') :
    n'.Encodes limits := by
  induction moves generalizing n with
  | nil =>
    cases hrun
    exact h
  | cons move moves ih =>
    obtain ⟨n₁, hstep, hrun⟩ := Option.bind_eq_some_iff.1 hrun
    have h₁ := h.of_step hle (fun m hm => hpublished m (hm ▸ List.mem_cons_self)) hstep
    exact ih h₁ (fun m hm => hpublished m (List.mem_cons_of_mem _ hm)) hrun

end Encodes

/-- Nothing that clients send makes the broker fail to encode, as long as no packet comes in that is
larger than any packet can be. The copies of a message that has come in can be written at every
level, and are read there with its topic and its payload; and what a handler replies can be written.
So no connection ends because a packet has no encoding, every message in flight can be sent again,
and a writer fails only if the transport takes no more. -/
theorem relays_of_run {credentials : Option Authenticator} {uuids : Nat → BitVec 128}
    (hlimit : limits.maxPacketSize ≤ 268435455)
    (hpublished : ∀ m, .publish m ∈ moves → m.Sendable)
    (hrun : run moves (start limits credentials uuids) = some n) :
    (∀ segments level p size,
      Packet.decode segments level limits.maxPacketSize = .ok (some (p, size)) →
        (∀ m ∈ p.message?, ∀ granted copy, m.Copy granted copy → ∀ level',
          (Packet.publish copy).Travels level' ∧
            copy.topic = m.topic ∧ copy.payload = m.payload) ∧
        ∀ (b : Broker) β cause, (b.handle β p).verdict ≠ .failed (.encode cause)) ∧
      (∀ c ∈ n.connections, ∀ cause, c.result? ≠ some (.error (.encode cause))) ∧
      (∀ id, ∀ e ∈ (n.broker.session id).window.entries, ∀ dup level,
        (Packet.publish ({ e.publication with dup }.toPublish (some e.packetId))).Travels level) ∧
      ∀ c ∈ n.connections, ∀ β w, c.writer? = some (β, w) → ∀ env turn,
        w.step env (n.broker.session β.session) = some turn → turn.lost = true →
          env.room = none := by
  have h := (start_encodes limits credentials uuids).of_run hlimit hpublished hrun
  refine ⟨?_, fun c hc => (h.connections c hc).result, ?_, ?_⟩
  · intro segments level p size hdecode
    rw [Packet.decode_eq_decodeFrom] at hdecode
    have hreadable := Packet.readable_of_decodeFrom hlimit hdecode
    refine ⟨?_, fun b β => b.encodes_handle β hreadable⟩
    intro m hm granted copy hcopy level'
    exact ⟨hcopy.travels (hreadable.sendable hm) level', hcopy.content⟩
  · intro id e he dup level
    have hwindow := h.windows id
    exact (hwindow.tracked e he).travels dup (hwindow.numbered.nonzero e he) level
  · intro c hc β w hwriter env turn hturn
    exact Writer.room_of_laden (h.session β.session) (h.laden c hc _ hwriter) hturn

/-- The message in flight can be sent again to a client of any level. -/
theorem relays_of_run_delivering : ∃ n, run (delivering 8) (start {}) = some n ∧
    (n.broker.session 0).window.entries = [delivered] ∧ ∀ dup level,
      (Packet.publish ({ delivered.publication with dup }.toPublish (some 1))).Travels level := by
  obtain ⟨n, -, hn, -, hentries, -⟩ := exists_refusing
  have hpublished : ∀ m, .publish m ∈ delivering 8 → m.Sendable := by
    intro m hm
    obtain rfl : m = { topic := [0x61], payload := [0x31], qos := .atLeastOnce } := by
      simpa [delivering, sending] using hm
    exact ⟨by decide, by decide⟩
  refine ⟨n, hn, hentries, ?_⟩
  apply (relays_of_run (by decide) hpublished hn).2.2.1 0
  rw [hentries]
  exact List.mem_singleton_self delivered

end Network

end MqttBroker
