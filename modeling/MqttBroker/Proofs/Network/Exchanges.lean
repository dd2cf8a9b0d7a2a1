import Mathlib.Data.List.Nodup
import MqttBroker.Proofs.Network.Effects
/-!
Inbound QoS 2 exchanges. From the PUBLISH that begins one to the PUBREL that ends it the message is
dispatched once, whatever else the session's connections are sent, and over any number of them. The
identifiers that wait are bounded, and a PUBLISH beyond the bound is the end of its connection.
-/

namespace MqttBroker

open Broker (Dispatches)

namespace Packet

/-- Is it a QoS 2 PUBLISH with that identifier? -/
def begins (pid : UInt16) : Packet → Bool
  | publish p => p.qos == .exactlyOnce && p.packetId == some pid
  | _ => false

/-- Is it a PUBREL with that identifier? -/
def ends (pid : UInt16) : Packet → Bool
  | pubRel a => a.packetId == pid
  | _ => false

/-- Everything a packet can do to the identifiers that wait, with the messages it brings. -/
inductive Takes (most : Nat) (pending : List UInt16) :
    Packet → List UInt16 × List Message → Prop where
  | passes {p : Packet} {ms : List Message} (h : ∀ pid, p.begins pid = true → ms = []) :
    Takes most pending p (pending, ms)
  | opens {q : Publish} {pid : UInt16} (hid : q.packetId = some pid) (hnew : pid ∉ pending)
    (hroom : pending.length < most) :
    Takes most pending (.publish q) (pid :: pending, [Message.ofPublish q])
  | closes (a : Ack) : Takes most pending (.pubRel a) (pending.filter (· != a.packetId), [])

variable {most : Nat} {pending : List UInt16} {pid : UInt16} {p : Packet}

theorem takes_takeIn (most : Nat) (pending : List UInt16) (p : Packet) :
    Takes most pending p (p.takeIn most pending) := by
  cases p with
  | publish q =>
    rw [takeIn, Publish.takeIn]
    split
    · exact .passes fun _ _ => rfl
    cases hqos : q.qos with
    | atMostOnce => exact .passes (by simp [begins, hqos])
    | atLeastOnce =>
      cases q.packetId with
      | none => exact .passes fun _ _ => rfl
      | some pid => exact .passes (by simp [begins, hqos])
    | exactlyOnce =>
      cases hid : q.packetId with
      | none => exact .passes fun _ _ => rfl
      | some pid =>
        dsimp only
        split
        · exact .passes fun _ _ => rfl
        · next hnew =>
          split
          · exact .passes fun _ _ => rfl
          · next hroom =>
            exact .opens hid (mt List.contains_iff_mem.2 hnew) (Nat.lt_of_not_le hroom)
  | pubRel a => exact .closes a
  | _ => exact .passes fun _ _ => rfl

namespace Takes

variable {taken : List UInt16 × List Message}

theorem nodup (h : Takes most pending p taken) (hpending : pending.Nodup) : taken.1.Nodup := by
  cases h with
  | passes => exact hpending
  | opens hid hnew => exact List.nodup_cons.2 ⟨hnew, hpending⟩
  | closes a => exact hpending.filter _

theorem length_le (h : Takes most pending p taken) (hpending : pending.length ≤ most) :
    taken.1.length ≤ most := by
  cases h with
  | passes => exact hpending
  | opens hid hnew hroom => exact hroom
  | closes a => exact (List.length_filter_le _ _).trans hpending

/-- An identifier waits until its PUBREL comes. -/
theorem mem (h : Takes most pending p taken) (hpid : pid ∈ pending)
    (hends : p.ends pid = false) : pid ∈ taken.1 := by
  cases h with
  | passes => exact hpid
  | opens => exact List.mem_cons_of_mem _ hpid
  | closes a =>
    have hother : a.packetId ≠ pid := ne_of_beq_false hends
    exact List.mem_filter.2 ⟨hpid, bne_iff_ne.2 hother.symm⟩

/-- While an identifier waits its PUBLISH brings nothing. -/
theorem quiet (h : Takes most pending p taken) (hpid : pid ∈ pending)
    (hbegins : p.begins pid = true) : taken.2 = [] := by
  cases h with
  | passes hnone => exact hnone pid hbegins
  | opens hid hnew =>
    have hsame := eq_of_beq (Bool.and_eq_true_iff.1 hbegins).2
    cases hid.symm.trans hsame
    exact absurd hpid hnew
  | closes a => rfl

end Takes

end Packet

/-- A PUBLISH that begins an exchange if another one is let in: at QoS 2, with an identifier that
does not wait. -/
structure Publish.Proposes (pending : List UInt16) (pid : UInt16) (p : Publish) : Prop where
  topic : Topic.isValidName p.topic = true
  qos : p.qos = .exactlyOnce
  packetId : p.packetId = some pid
  new : pid ∉ pending

section

variable {most : Nat} {pending : List UInt16} {pid : UInt16} {p : Publish}

theorem Publish.Proposes.begins (h : p.Proposes pending pid) :
    (Packet.publish p).begins pid = true := by
  rw [Packet.begins, h.qos, h.packetId, beq_self_eq_true, beq_self_eq_true]
  rfl

theorem Publish.Proposes.takeIn_eq (h : p.Proposes pending pid) (most : Nat) :
    (Packet.publish p).takeIn most pending =
      if most ≤ pending.length then (pending, []) else (pid :: pending, [Message.ofPublish p]) := by
  have hnew : ¬pending.contains pid = true := mt List.contains_iff_mem.1 h.new
  rw [Packet.takeIn, Publish.takeIn, h.topic, h.qos, h.packetId]
  exact if_neg hnew

theorem Handled.verdict_of_full {h : Handled} (hproposes : p.Proposes h.session.incoming pid)
    (hfull : h.binding.link.maxReceive ≤ h.session.incoming.length) :
    (h.onPacket (.publish p)).verdict = .failed .receiveMaximumExceeded := by
  have hnew : ¬h.session.isPending pid = true := mt List.contains_iff_mem.1 hproposes.new
  rw [onPacket, onPublish, hproposes.topic, hproposes.qos, hproposes.packetId]
  dsimp only
  rw [if_neg hnew, if_pos hfull]
  rfl

end

/-! ### The end of a connection that failed -/

namespace Connection

/-- Why the connection failed, from when it reads no more. -/
def failure? (c : Connection) : Option SessionError :=
  match c.phase with
  | .draining _ (.error error) _ | .ended (.error error) => some error
  | _ => none

variable {now : Nat} {closeFirst : Bool} {b : Broker} {c : Connection} {turn : Turn}
  {error : SessionError}

/-- The step that handles a packet does nothing else. -/
theorem turn_of_handles? {β : Binding} {p : Packet}
    (hhandles : c.handles? closeFirst b = some (β, p))
    (h : c.step now closeFirst b = some turn) : ∃ c' w, turn = handle now b c' β w p := by
  cases acts_of_step h with
  | @handle c' _ _ w _ hphase hhandles' =>
    cases hhandles.symm.trans hhandles'
    exact ⟨c', w, rfl⟩
  | outside hbefore =>
    rw [handles?_of_binding? hbefore] at hhandles
    cases hhandles
  | bind hconnect =>
    rw [handles?_of_binding? (binding?_of_connect? hconnect)] at hhandles
    cases hhandles
  | greet hphase | activate hphase =>
    rw [handles?, hphase] at hhandles
    cases hhandles
  | read hphase hnone | drain hphase hnone | conclude hphase hnone =>
    cases hhandles.symm.trans hnone

theorem failure?_of_handle {β : Binding} {p : Packet}
    (hhandles : c.handles? closeFirst b = some (β, p))
    (hverdict : (b.handle β p).verdict = .failed error)
    (h : c.step now closeFirst b = some turn) : turn.connection.failure? = some error := by
  obtain ⟨c', w, rfl⟩ := turn_of_handles? hhandles h
  rw [handle, hverdict]
  rfl

theorem keeps_failure (error : SessionError) : Keeps (fun c => c.failure? = some error) where
  client := id
  step {now closeFirst b c turn} hfailure h := by
    unfold failure? at hfailure
    split at hfailure
    · next hphase =>
      cases hfailure
      rw [Connection.step, hphase] at h
      obtain ⟨-, h⟩ := Option.ite_none_right_eq_some.1 h
      cases h
      rfl
    · next hphase =>
      rw [Connection.step, hphase] at h
      cases h
    · cases hfailure
  writeStep {now look b c turn} hfailure h := by
    obtain ⟨⟨β, w⟩, hwriter, h⟩ := Option.bind_eq_some_iff.1 h
    obtain ⟨turn', -, h⟩ := Option.bind_eq_some_iff.1 h
    cases h
    unfold failure? at hfailure
    split at hfailure
    · next hphase =>
      cases hfailure
      rw [failure?, setWriter, hphase]
    · next hphase =>
      rw [writer?, hphase] at hwriter
      cases hwriter
    · cases hfailure

end Connection

namespace Network

variable {limits : Limits} {n n' : Network} {move : Move} {moves : List Move} {i : Nat}
  {error : SessionError} {x : Handling}

/-- Why the `i`-th connection failed. -/
def failure? (n : Network) (i : Nat) : Option SessionError := (n.connections[i]?).bind (·.failure?)

theorem failure?_of_handling (hx : n.handling? move n' = some x)
    (hverdict : (x.before.handle x.binding x.packet).verdict = .failed error)
    (hstep : n.step move = some n') : n'.failure? x.connection = some error := by
  cases move with
  | step i now closeFirst =>
    obtain ⟨c, hc, hstep⟩ := Option.bind_eq_some_iff.1 hstep
    obtain ⟨turn, hturn, rfl⟩ := Option.map_eq_some_iff.1 hstep
    rw [handling?_step hc] at hx
    obtain ⟨⟨β, p⟩, hhandles, rfl⟩ := Option.map_eq_some_iff.1 hx
    rw [failure?, withTurn, List.getElem?_set_self (List.getElem?_eq_some_iff.1 hc).1]
    exact Connection.failure?_of_handle hhandles hverdict hturn
  | accept | client | write | publish | shutdown => cases hx

end Network

/-! ### What is handled in a run -/

namespace Handling

variable {limits : Limits} {pending : List UInt16} {pid : UInt16} {x : Handling}
  {xs ys : List Handling}

/-- The packet is handled for a session that is there, under the limit of the broker. -/
structure Sound (limits : Limits) (x : Handling) : Prop where
  filed : x.before.Filed
  maxReceive : x.binding.link.maxReceive = limits.receiveMaximum.toNat
  takesIn : x.before.TakesIn x.binding x.packet x.after

theorem Sound.takeIn_eq (h : x.Sound limits) :
    (x.left, x.dispatched) = x.packet.takeIn limits.receiveMaximum.toNat x.pending := by
  rw [← h.maxReceive]
  exact Prod.ext h.takesIn.pending h.takesIn.messages

theorem Sound.takes (h : x.Sound limits) :
    Packet.Takes limits.receiveMaximum.toNat x.pending x.packet (x.left, x.dispatched) :=
  h.takeIn_eq ▸ Packet.takes_takeIn _ _ _

/-- Each packet finds the identifiers that the one before it left. -/
def Chained : List UInt16 → List Handling → Prop
  | _, [] => True
  | pending, x :: xs => x.pending = pending ∧ Chained x.left xs

theorem chained_of_append (h : Chained pending (xs ++ ys)) : ∃ pending', Chained pending' ys := by
  induction xs generalizing pending with
  | nil => exact ⟨pending, h⟩
  | cons x xs ih => exact ih h.2

/-- While an identifier waits nothing is dispatched for its PUBLISHes. -/
theorem Chained.quiet (h : Chained pending (xs ++ ys)) (hsound : ∀ x ∈ xs, x.Sound limits)
    (hpid : pid ∈ pending) (hends : ∀ x ∈ xs, x.packet.ends pid = false) :
    (xs.filter (·.packet.begins pid)).flatMap dispatched = [] := by
  induction xs generalizing pending with
  | nil => rfl
  | cons x xs ih =>
    obtain ⟨rfl, h⟩ := h
    have htakes := (hsound x (List.mem_cons_self ..)).takes
    have hleft := htakes.mem hpid (hends x (List.mem_cons_self ..))
    have hrest := ih h (fun y hy => hsound y (List.mem_cons_of_mem _ hy)) hleft
      fun y hy => hends y (List.mem_cons_of_mem _ hy)
    rw [List.filter_cons]
    split
    · next hbegins =>
      rw [List.flatMap_cons, hrest, List.append_nil]
      exact htakes.quiet hpid hbegins
    · exact hrest

theorem Chained.once {p : Publish} (h : Chained pending (x :: (xs ++ ys)))
    (hsound : ∀ y ∈ x :: xs, y.Sound limits) (hpacket : x.packet = .publish p)
    (hproposes : p.Proposes x.pending pid)
    (hroom : x.pending.length < limits.receiveMaximum.toNat)
    (hends : ∀ y ∈ xs, y.packet.ends pid = false) :
    ((x :: xs).filter (·.packet.begins pid)).flatMap dispatched = [Message.ofPublish p] := by
  have htaken := (hsound x (List.mem_cons_self ..)).takeIn_eq
  rw [hpacket, hproposes.takeIn_eq, if_neg (Nat.not_le_of_lt hroom)] at htaken
  obtain ⟨hleft, hdispatched⟩ := Prod.mk.inj htaken
  have hpid : pid ∈ x.left := hleft ▸ List.mem_cons_self ..
  have hrest := h.2.quiet (fun y hy => hsound y (List.mem_cons_of_mem _ hy)) hpid hends
  rw [List.filter_cons_of_pos (hpacket ▸ hproposes.begins), List.flatMap_cons, hrest,
    hdispatched]
  rfl

end Handling

namespace Network

variable {limits : Limits} {n n' : Network} {move : Move} {moves : List Move} {i : Nat}
  {id : SessionId} {x : Handling}

/-- No identifier waits twice in the session, and no more of them wait than the broker lets. -/
def Bounded (limits : Limits) (n : Network) (id : SessionId) : Prop :=
  (n.broker.session id).incoming.Nodup ∧
    (n.broker.session id).incoming.length ≤ limits.receiveMaximum.toNat

namespace Sound

theorem handling_of_step (h : n.Sound limits) (hstep : n.step move = some n')
    (hx : n.handling? move n' = some x) :
    x.before = n.broker ∧ x.after = n'.broker ∧ x.Sound limits := by
  cases affects_of_step h hstep with
  | nothing hhandling => cases hhandling.symm.trans hx
  | @turns i now closeFirst c turn hc heffect =>
    rw [handling?_step hc] at hx
    generalize hhandles : c.handles? closeFirst n.broker = handled? at hx heffect
    cases heffect with
    | stays | enters | parts => cases hx
    | handles hbefore hafter htakes =>
      cases hx
      exact ⟨rfl, rfl, h.filed, h.maxReceive i _ ((binding?_eq_some hc).trans hbefore), htakes⟩

/-- The identifiers of a session change only by the packets that are handled for it. -/
theorem incoming_of_step (h : n.Sound limits) (hstep : n.step move = some n')
    (hother : ∀ x ∈ n.handling? move n', x.session ≠ id) :
    (n'.broker.session id).incoming = (n.broker.session id).incoming := by
  cases affects_of_step h hstep with
  | nothing hhandling hbindings hframes => exact hframes.incoming id
  | @turns i now closeFirst c turn hc heffect =>
    rw [handling?_step hc] at hother
    generalize hhandles : c.handles? closeFirst n.broker = handled? at hother heffect
    cases heffect with
    | stays hbinding hcarries hframes => exact hframes.incoming id
    | @enters turn connect β hconnect hafter henters =>
      by_cases hid : id = β.session
      · exact hid ▸ henters.incoming
      · exact congrArg Session.incoming (henters.others id hid)
    | parts hbefore hafter hparts => exact hparts.incoming id
    | handles hbefore hafter htakes =>
      have hne := hother _ rfl
      exact congrArg (·.2.1) (htakes.own id fun hid => hne (List.mem_singleton.1 hid).symm)

/-- What is handled for a session follows on from what waits. -/
theorem chained_handlings (h : n.Sound limits) (moves : List Move) (id : SessionId) :
    Handling.Chained (n.broker.session id).incoming
      ((handlings moves n).filter (·.session == id)) := by
  induction moves generalizing n with
  | nil => trivial
  | cons move moves ih =>
    rw [handlings]
    split
    · next n' hstep =>
      have hrest := ih (h.of_step hstep)
      have hsame : (∀ x ∈ n.handling? move n', x.session ≠ id) →
          (n'.broker.session id).incoming = (n.broker.session id).incoming :=
        h.incoming_of_step hstep
      cases hx : n.handling? move n' with
      | none =>
        rw [hx] at hsame
        rwa [hsame fun x hx => absurd hx (Option.not_mem_none x)] at hrest
      | some x =>
        obtain ⟨hbefore, hafter, -⟩ := h.handling_of_step hstep hx
        rw [Option.toList_some, List.singleton_append, List.filter_cons]
        split
        · next hid =>
          obtain rfl := eq_of_beq hid
          refine ⟨congrArg (fun b : Broker => (b.session x.session).incoming) hbefore, ?_⟩
          rwa [Handling.left, hafter]
        · next hid =>
          rw [hx] at hsame
          rwa [hsame fun y hy => Option.some.inj hy ▸ fun heq => hid (beq_iff_eq.2 heq)] at hrest
    · trivial

theorem bounded_of_step (h : n.Sound limits) (hbounded : n.Bounded limits id)
    (hstep : n.step move = some n') : n'.Bounded limits id := by
  unfold Bounded at hbounded ⊢
  by_cases hother : ∀ x ∈ n.handling? move n', x.session ≠ id
  · rwa [h.incoming_of_step hstep hother]
  · obtain ⟨x, hother⟩ := not_forall.1 hother
    obtain ⟨hx, hid⟩ := Classical.not_imp.1 hother
    obtain rfl := not_not.1 hid
    obtain ⟨hbefore, hafter, hsound⟩ := h.handling_of_step hstep hx
    rw [← hbefore] at hbounded
    rw [← hafter]
    exact ⟨hsound.takes.nodup hbounded.1, hsound.takes.length_le hbounded.2⟩

theorem bounded_of_run (h : n.Sound limits) (hbounded : n.Bounded limits id)
    (hrun : run moves n = some n') : n'.Bounded limits id := by
  have hboth := kept_of_run (P := fun n => n.Sound limits ∧ n.Bounded limits id)
    (fun h hstep => ⟨h.1.of_step hstep, h.1.bounded_of_step h.2 hstep⟩) hrun ⟨h, hbounded⟩
  exact hboth.2

theorem sound_of_mem_handlings (h : n.Sound limits) (hx : x ∈ handlings moves n) :
    x.Sound limits := by
  obtain ⟨m, move, m', hpasses, hx⟩ := passes_of_mem_handlings hx
  exact ((h.of_passes hpasses).handling_of_step hpasses.step_eq hx).2.2

/-- A PUBLISH for which there is no room is not taken in, and its connection has failed. -/
theorem refused_of_full (h : n.Sound limits) (hrun : run moves n = some n')
    (hx : x ∈ handlings moves n) {p : Publish} {pid : UInt16} (hpacket : x.packet = .publish p)
    (hproposes : p.Proposes x.pending pid)
    (hfull : limits.receiveMaximum.toNat ≤ x.pending.length) :
    x.dispatched = [] ∧ x.left = x.pending ∧
      n'.failure? x.connection = some .receiveMaximumExceeded := by
  have hsound := h.sound_of_mem_handlings hx
  have htaken := hsound.takeIn_eq
  rw [hpacket, hproposes.takeIn_eq, if_pos hfull] at htaken
  obtain ⟨hleft, hdispatched⟩ := Prod.mk.inj htaken
  have hverdict : (x.before.handle x.binding x.packet).verdict =
      .failed .receiveMaximumExceeded := by
    rw [hpacket]
    exact Handled.verdict_of_full (h := { broker := x.before, binding := x.binding }) hproposes
      (hsound.maxReceive ▸ hfull)
  obtain ⟨m, move, m', hpasses, hx⟩ := passes_of_mem_handlings hx
  obtain ⟨after, hafter⟩ := hpasses.exists_run hrun
  have hfailure := Option.bind_eq_some_iff.1 (failure?_of_handling hx hverdict hpasses.step_eq)
  have hkept := exists_of_run (Connection.keeps_failure _) hfailure hafter
  exact ⟨hdispatched, hleft, Option.bind_eq_some_iff.2 hkept⟩

end Sound

/-- What becomes of the QoS 2 messages of clients, where `xs` are the packets that were handled
until the network came to be `n`. -/
structure KeepsExchanges (limits : Limits) (xs : List Handling) (n : Network) : Prop where
  /-- All that is dispatched for an exchange is the message of the PUBLISH that begins it. -/
  once : ∀ (id : SessionId) (pid : UInt16) (before span after : List Handling) (x : Handling)
    (p : Publish), xs.filter (·.session == id) = before ++ x :: (span ++ after) →
      x.packet = .publish p → p.Proposes x.pending pid →
        x.pending.length < (max limits.maxReceive 1).toNat →
          (∀ y ∈ span, y.packet.ends pid = false) →
            ((x :: span).filter (·.packet.begins pid)).flatMap Handling.dispatched =
              [Message.ofPublish p]
  dispatches : ∀ x ∈ xs, Dispatches x.session x.dispatched x.before x.after
  bounded : ∀ id, (n.broker.session id).incoming.Nodup ∧
    (n.broker.session id).incoming.length ≤ (max limits.maxReceive 1).toNat
  refused : ∀ x ∈ xs, ∀ (p : Publish) (pid : UInt16), x.packet = .publish p →
    p.Proposes x.pending pid → (max limits.maxReceive 1).toNat ≤ x.pending.length →
      x.dispatched = [] ∧ x.left = x.pending ∧
        n.failure? x.connection = some .receiveMaximumExceeded

/-- An exchange brings one message, over whatever connections of its session it goes. -/
theorem keepsExchanges_of_run {credentials : Option Authenticator} {uuids : Nat → BitVec 128}
    (hrun : run moves (start limits credentials uuids) = some n) :
    KeepsExchanges limits (handlings moves (start limits credentials uuids)) n := by
  have hstart := start_sound limits credentials uuids
  constructor
  case once =>
    intro id pid before span after x p hxs hpacket hproposes hroom hends
    have hchained := hstart.chained_handlings moves id
    rw [hxs] at hchained
    obtain ⟨pending, hchained⟩ := Handling.chained_of_append hchained
    refine hchained.once (fun y hy => ?_) hpacket hproposes hroom hends
    have hmem : y ∈ before ++ x :: (span ++ after) := by
      refine List.mem_append_right before ?_
      rw [← List.cons_append]
      exact List.mem_append_left after hy
    rw [← hxs] at hmem
    exact hstart.sound_of_mem_handlings (List.mem_filter.1 hmem).1
  case dispatches =>
    intro x hx
    have hx := hstart.sound_of_mem_handlings hx
    exact hx.takesIn.dispatches hx.filed
  case bounded =>
    exact fun id => hstart.bounded_of_run ⟨List.nodup_nil, Nat.zero_le _⟩ hrun
  case refused =>
    exact fun x hx p pid hpacket hproposes hfull =>
      hstart.refused_of_full hrun hx hpacket hproposes hfull

/-- The `i`-th client connects with the client id "x" and without a clean start. -/
def resuming (i : Nat) : List Move :=
  .accept 0 64 :: sending i [0x10, 0x0d, 0, 4, 0x4d, 0x51, 0x54, 0x54, 4, 0, 0, 0, 0, 1, 0x78] ++
    [.step i 0 false]

/-- The `i`-th client sends a PUBLISH at QoS 2. -/
def publishing (i : Nat) (pid : UInt8) : List Move :=
  sending i [0x34, 6, 0, 1, 0x74, 0, pid, 0x70]

/-- A client begins one exchange, and a second one for which there is no room. It comes back, sends
the first PUBLISH again, and releases it. -/
def resumed : List Move :=
  resuming 0 ++ publishing 0 7 ++ publishing 0 8 ++ leaving 0 5 ++ resuming 1 ++ publishing 1 7 ++
    sending 1 [0x62, 2, 0, 7]

theorem keepsExchanges_of_run_resumed :
    ∃ n, run resumed (start { maxReceive := 0 }) = some n ∧
      (handlings resumed (start { maxReceive := 0 })).map
        (fun x => (x.connection, x.session, x.pending, x.dispatched.map (·.payload))) =
          [(0, 0, [], [[0x70]]), (0, 0, [7], []), (1, 0, [7], []), (1, 0, [7], [])] ∧
      n.failure? 0 = some .receiveMaximumExceeded ∧
      KeepsExchanges { maxReceive := 0 } (handlings resumed (start { maxReceive := 0 }))
        n := by
  have hend : (run resumed (start { maxReceive := 0 })).map (·.failure? 0) =
      some (some .receiveMaximumExceeded) := by decide +kernel
  obtain ⟨n, hrun, hfailure⟩ := Option.map_eq_some_iff.1 hend
  exact ⟨n, hrun, by decide +kernel, hfailure, keepsExchanges_of_run hrun⟩

end Network

end MqttBroker
