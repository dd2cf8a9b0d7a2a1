import MqttBroker.Connection.Basic
import MqttBroker.Proofs.Packet.RoundTrip
import MqttBroker.Proofs.Packet.Stream
/-!
How a connection reads. Bytes arrive in chunks of any size, and the connection may look for a packet
at any time, also in vain and again. What it finds is what the stream as a whole is made of.
-/

namespace MqttBroker

open Packet (IsCut Faults Leads Stream)

/-- What happens at the reading end of a connection. -/
inductive Arrival where
  | chunk (bytes : Bytes)
  /-- The client writes no more. -/
  | finish
  /-- The connection looks for a packet. It waits if it finds nothing, until it looks again or is
  told to do something else first. -/
  | look

/-- The bytes that arrive before the client has finished. -/
def Arrival.delivered : List Arrival → Bytes
  | [] => []
  | chunk bytes :: arrivals => bytes ++ delivered arrivals
  | finish :: _ => []
  | look :: arrivals => delivered arrivals

/-- A connection with what it has read. -/
structure Reception where
  connection : Connection
  packets : List Packet := []
  /-- How reading has ended, once it has: with an error, or without one. -/
  ending : Option (Option SessionError) := none

namespace Connection

variable {c : Connection}

/-- What has arrived and is in no packet yet. -/
def unread (c : Connection) : Bytes := c.inbox.buffer ++ c.inbound.held

/-- What a look can find. -/
inductive Receives (c : Connection) : Incoming → Prop where
  | packet {p : Packet} {n : Nat} (hleads : Leads c.inbox.level c.inbox.maxPacketSize c.inbox.buffer p n) :
    Receives c (.packet p { c with inbox := { c.inbox with buffer := c.inbox.buffer.drop n } })
  | malformed {e : DecodeError}
    (hfaults : Faults c.inbox.level c.inbox.maxPacketSize c.inbox.buffer e) :
    Receives c (.failed (.malformedPacket e))
  | more (hheld : c.inbound.held ≠ []) :
    Receives c (.more { c with
      inbox := c.inbox.feed c.inbound.held, inbound := { c.inbound with held := [] } })
  | cut (hcut : IsCut c.inbox.maxPacketSize c.inbox.buffer) (hheld : c.inbound.held = [])
    (hclosed : c.inbound.closed = true) (hbuffer : c.inbox.buffer ≠ []) :
    Receives c (.failed (.transport .unexpectedEnd))
  | finished (hheld : c.inbound.held = []) (hclosed : c.inbound.closed = true)
    (hbuffer : c.inbox.buffer = []) : Receives c .finished
  | nothing (hcut : IsCut c.inbox.maxPacketSize c.inbox.buffer) (hheld : c.inbound.held = [])
    (hopen : c.inbound.closed = false) : Receives c .nothing

theorem next_of_isCut {i : Inbox} (hcut : IsCut i.maxPacketSize i.buffer) :
    i.next = .incomplete := by
  unfold Inbox.next
  rcases hcut with hnone | ⟨n, hn, hlt⟩
  · rw [hnone]
  · have hshort : (i.buffer.take n).length < n := by
      rw [List.length_take]
      omega
    rw [hn]
    exact if_pos hshort

theorem next_of_faults {i : Inbox} {e : DecodeError}
    (hfaults : Faults i.level i.maxPacketSize i.buffer e) : i.next = .malformed e := by
  unfold Inbox.next
  rcases hfaults with herror | ⟨n, hn, hle, herror⟩
  · rw [herror]
  · have hwhole : ¬ (i.buffer.take n).length < n := by
      rw [List.length_take]
      omega
    rw [hn]
    dsimp only
    rw [if_neg hwhole, herror]

theorem next_of_leads {i : Inbox} {p : Packet} {n : Nat}
    (hleads : Leads i.level i.maxPacketSize i.buffer p n) :
    i.next = .packet p { i with buffer := i.buffer.drop n } := by
  have hle := hleads.le_length
  have hwhole : ¬ (i.buffer.take n).length < n := by
    rw [List.length_take]
    omega
  unfold Inbox.next
  rw [hleads.frameLength_eq]
  dsimp only
  rw [if_neg hwhole, hleads.decode_eq]

theorem receives_receive (c : Connection) : c.Receives c.receive := by
  unfold receive
  rcases Packet.front_cases c.inbox.level c.inbox.maxPacketSize c.inbox.buffer with
    hcut | ⟨e, hfaults⟩ | ⟨p, n, hleads⟩
  · rw [next_of_isCut hcut]
    dsimp only
    split
    · next hheld => exact .more (by simpa using hheld)
    · next hheld =>
      have hheld : c.inbound.held = [] := by simpa using hheld
      split
      · next hclosed =>
        split
        · next hbuffer => exact .finished hheld hclosed (List.isEmpty_iff.1 hbuffer)
        · next hbuffer => exact .cut hcut hheld hclosed (by simpa using hbuffer)
      · next hopen => exact .nothing hcut hheld (by simpa using hopen)
  · rw [next_of_faults hfaults]
    exact .malformed hfaults
  · rw [next_of_leads hleads]
    exact .packet hleads

/-- A packet that is received has been decoded. -/
theorem decodeFrom_of_receive {c' : Connection} {p : Packet} (h : c.receive = .packet p c') :
    ∃ (bytes : Bytes) (n : Nat),
      Packet.decodeFrom bytes c.inbox.level c.inbox.maxPacketSize = .ok (some (p, n)) := by
  have hreceives := c.receives_receive
  rw [h] at hreceives
  cases hreceives with
  | packet hleads =>
    have hdecode := hleads.decode_eq
    rw [Packet.decode_eq_decodeFrom] at hdecode
    exact ⟨_, _, hdecode⟩

theorem bodyCanonical_of_receive {c' : Connection} {p : Packet} (h : c.receive = .packet p c') :
    p.BodyCanonical c.inbox.level := by
  obtain ⟨bytes, n, hdecode⟩ := decodeFrom_of_receive h
  exact (Packet.spelling_of_decodeFrom hdecode).1

end Connection

namespace Reception

def take (r : Reception) (bytes : Bytes) : Reception :=
  { r with connection := { r.connection with inbound := r.connection.inbound.write bytes } }

def close (r : Reception) : Reception :=
  { r with connection := { r.connection with inbound := r.connection.inbound.close } }

/-- Looks once, unless reading has come to its end. -/
def look (r : Reception) : Reception :=
  if r.ending.isSome then r
  else match r.connection.receive with
    | .packet p c => { r with connection := c, packets := r.packets ++ [p] }
    | .failed error => { r with ending := some (some error) }
    | .finished => { r with ending := some none }
    | .more c => { r with connection := c }
    | .nothing => r

/-- What follows an arrival. Nothing arrives behind the end of the stream. -/
def after (r : Reception) : Arrival → Reception
  | .chunk bytes => if r.connection.inbound.closed then r else r.take bytes
  | .finish => r.close
  | .look => r.look

def run (r : Reception) (arrivals : List Arrival) : Reception := arrivals.foldl after r

/-- The bytes that the arrivals bring. -/
def coming (r : Reception) (arrivals : List Arrival) : Bytes :=
  if r.connection.inbound.closed then [] else Arrival.delivered arrivals

variable {level : Level} {limit : Nat} {s : Bytes} {r : Reception}

/-- What has been read of a stream that has come as far as `s`. However the stream goes on, the
packets of what is unread follow those that have been read. -/
structure Tracks (level : Level) (limit : Nat) (s : Bytes) (r : Reception) : Prop where
  level_eq : r.connection.inbox.level = level
  limit_eq : r.connection.inbox.maxPacketSize = limit
  length_le : r.connection.unread.length ≤ s.length
  goes : ∀ x ps ending, Stream level limit (r.connection.unread ++ x) ps ending →
    Stream level limit (s ++ x) (r.packets ++ ps) ending
  ended : ∀ ending, r.ending = some ending → ∀ x, (r.connection.inbound.closed = true → x = []) →
    Stream level limit (s ++ x) r.packets ending

namespace Tracks

theorem start (c : Connection) :
    Tracks c.inbox.level c.inbox.maxPacketSize c.unread { connection := c } :=
  ⟨rfl, rfl, Nat.le_refl _, fun _ _ _ h => h, nofun⟩

theorem take (h : r.Tracks level limit s) (hopen : r.connection.inbound.closed = false)
    (bytes : Bytes) : (r.take bytes).Tracks level limit (s ++ bytes) := by
  constructor
  case level_eq => exact h.level_eq
  case limit_eq => exact h.limit_eq
  case length_le =>
    have hle := h.length_le
    simp only [Connection.unread, Reception.take, Pipe.write, List.length_append] at hle ⊢
    omega
  case goes =>
    intro x ps ending hstream
    rw [List.append_assoc]
    apply h.goes (bytes ++ x)
    simpa only [Connection.unread, Reception.take, Pipe.write, List.append_assoc] using hstream
  case ended =>
    intro ending hending x _
    rw [List.append_assoc]
    apply h.ended ending hending
    rw [hopen]
    exact nofun

theorem close (h : r.Tracks level limit s) : r.close.Tracks level limit s :=
  ⟨h.level_eq, h.limit_eq, h.length_le, h.goes, fun ending hending x hx => by
    obtain rfl := hx rfl
    exact h.ended ending hending [] fun _ => rfl⟩

/-- What is at the front of the inbox is at the front of the stream, whatever is still to come. -/
theorem leads {p : Packet} {n : Nat} (h : r.Tracks level limit s)
    (hleads : Leads level limit r.connection.inbox.buffer p n) :
    Tracks level limit s { r with
      connection := { r.connection with
        inbox := { r.connection.inbox with buffer := r.connection.inbox.buffer.drop n } }
      packets := r.packets ++ [p]
      ending := none } := by
  have hle := h.length_le
  refine ⟨h.level_eq, h.limit_eq, ?_, fun x ps ending hstream => ?_, nofun⟩
  · simp only [Connection.unread, List.length_append, List.length_drop] at hle ⊢
    omega
  have hfront : Leads level limit (r.connection.unread ++ x) p n := by
    rw [Connection.unread, List.append_assoc]
    exact hleads.append _
  have hrest : (r.connection.unread ++ x).drop n =
      r.connection.inbox.buffer.drop n ++ r.connection.inbound.held ++ x := by
    rw [Connection.unread, List.append_assoc, List.append_assoc,
      List.drop_append_of_le_length hleads.le_length]
  rw [List.append_assoc]
  apply h.goes
  exact .packet hfront (hrest ▸ hstream)

theorem ends (h : r.Tracks level limit s) {ending : Option SessionError}
    (hends : ∀ x, (r.connection.inbound.closed = true → x = []) →
      Stream level limit (r.connection.unread ++ x) [] ending) :
    Tracks level limit s { r with ending := some ending } := by
  refine ⟨h.level_eq, h.limit_eq, h.length_le, h.goes, ?_⟩
  rintro _ ⟨⟩ x hx
  have hstream := h.goes x [] ending (hends x hx)
  rwa [List.append_nil] at hstream

theorem look (h : r.Tracks level limit s) : r.look.Tracks level limit s := by
  obtain ⟨rfl, rfl⟩ := And.intro h.level_eq h.limit_eq
  unfold Reception.look
  split
  · exact h
  next hgoing =>
  obtain ⟨c, packets, ending⟩ := r
  obtain rfl : ending = none := by simpa using hgoing
  dsimp only at h ⊢
  generalize hfound : c.receive = found
  have hreceives := c.receives_receive
  rw [hfound] at hreceives
  cases hreceives with
  | packet hleads => exact h.leads hleads
  | malformed hfaults =>
    refine h.ends fun x _ => .malformed ?_
    rw [Connection.unread, List.append_assoc]
    exact hfaults.append _
  | more =>
    have hsame : Connection.unread { c with
        inbox := c.inbox.feed c.inbound.held, inbound := { c.inbound with held := [] } } =
        c.unread := List.append_nil _
    refine ⟨rfl, rfl, hsame ▸ h.length_le, fun x ps ending hstream => ?_, nofun⟩
    exact h.goes x ps ending (hsame ▸ hstream)
  | cut hcut hheld hclosed hbuffer =>
    refine h.ends fun x hx => ?_
    rw [hx hclosed, Connection.unread, hheld, List.append_nil, List.append_nil]
    exact .cut hbuffer hcut
  | finished hheld hclosed hbuffer =>
    refine h.ends fun x hx => ?_
    rw [hx hclosed, Connection.unread, hheld, hbuffer]
    exact .finished
  | nothing => exact h

end Tracks

/-- Looking does not end a stream. -/
theorem closed_look (r : Reception) :
    r.look.connection.inbound.closed = r.connection.inbound.closed := by
  unfold look
  split
  · rfl
  generalize hfound : r.connection.receive = found
  have hreceives := r.connection.receives_receive
  rw [hfound] at hreceives
  cases hreceives <;> rfl

theorem tracks_run (h : r.Tracks level limit s) (arrivals : List Arrival) :
    (r.run arrivals).Tracks level limit (s ++ r.coming arrivals) := by
  induction arrivals generalizing r s with
  | nil =>
    rw [coming, Arrival.delivered, ite_self, List.append_nil]
    exact h
  | cons arrival arrivals ih =>
    have hrun : r.run (arrival :: arrivals) = (r.after arrival).run arrivals := rfl
    rw [hrun]
    cases arrival with
    | chunk bytes =>
      rw [after]
      split
      · next hclosed =>
        have hnone := ih h
        rw [coming, if_pos hclosed] at hnone ⊢
        exact hnone
      · next hopen =>
        have hmore := ih (h.take (by simpa using hopen) bytes)
        have hstill : ¬ (r.take bytes).connection.inbound.closed = true := hopen
        rw [coming, if_neg hstill, List.append_assoc] at hmore
        rw [coming, if_neg hopen]
        exact hmore
    | finish =>
      have hnone := ih h.close
      have hclosed : r.close.connection.inbound.closed = true := rfl
      have hcoming : r.coming (.finish :: arrivals) = [] := ite_self _
      rw [coming, if_pos hclosed] at hnone
      rw [hcoming]
      exact hnone
    | look =>
      have hmore := ih h.look
      rw [coming, closed_look] at hmore
      exact hmore

/-! ### Looking until nothing is left -/

/-- Bounds how often a look can find something in what has arrived. -/
def effort (r : Reception) : Nat :=
  r.connection.inbox.buffer.length + 2 * r.connection.inbound.held.length

theorem Tracks.effort_le (h : r.Tracks level limit s) : r.effort ≤ 2 * s.length := by
  have hle := h.length_le
  simp only [Connection.unread, effort, List.length_append] at hle ⊢
  omega

theorem look_cases (r : Reception) :
    r.look = r ∨ r.look.ending.isSome = true ∨ r.look.effort < r.effort := by
  unfold look
  split
  · exact .inl rfl
  generalize hfound : r.connection.receive = found
  have hreceives := r.connection.receives_receive
  rw [hfound] at hreceives
  cases hreceives with
  | packet hleads =>
    have hn := Packet.frameLength_pos hleads.frameLength_eq
    have hle := hleads.le_length
    right; right
    simp only [effort, List.length_drop]
    omega
  | malformed | cut | finished => exact .inr (.inl rfl)
  | more hheld =>
    have hpos := List.length_pos_iff.2 hheld
    right; right
    simp only [effort, Inbox.feed, List.length_append, List.length_nil]
    omega
  | nothing => exact .inl rfl

theorem run_looks_of_still (hstill : r.look = r) (k : Nat) :
    r.run (List.replicate k .look) = r := by
  induction k with
  | zero => rfl
  | succ k ih =>
    have hrun : r.run (List.replicate (k + 1) .look) =
        r.look.run (List.replicate k .look) := rfl
    rw [hrun, hstill, ih]

theorem still_of_ended (hended : r.ending.isSome = true) : r.look = r := if_pos hended

/-- After enough looks the next one makes no difference. -/
theorem still_run_looks {k : Nat} (hk : r.effort < k) :
    (r.run (List.replicate k .look)).look = r.run (List.replicate k .look) := by
  induction k generalizing r with
  | zero => exact absurd hk (Nat.not_lt_zero _)
  | succ k ih =>
    have hrun : r.run (List.replicate (k + 1) .look) =
        r.look.run (List.replicate k .look) := rfl
    rcases r.look_cases with hstill | hended | hless
    · rw [run_looks_of_still hstill]
      exact hstill
    · rw [hrun, run_looks_of_still (still_of_ended hended)]
      exact still_of_ended hended
    · rw [hrun]
      exact ih (by omega)

/-- A look finds nothing more only when all packets that have come are read. -/
theorem Tracks.stream_of_still (h : r.Tracks level limit s) (hstill : r.look = r) :
    ∃ ending, Stream level limit s r.packets ending ∧
      (r.ending = some ending ∨ r.ending = none ∧ r.connection.inbound.closed = false) := by
  obtain ⟨rfl, rfl⟩ := And.intro h.level_eq h.limit_eq
  cases hending : r.ending with
  | some ending =>
    refine ⟨ending, ?_, .inl rfl⟩
    have hstream := h.ended ending hending [] fun _ => rfl
    rwa [List.append_nil] at hstream
  | none =>
    unfold Reception.look at hstill
    rw [hending, if_neg (by simp)] at hstill
    generalize hfound : r.connection.receive = found at hstill
    have hreceives := r.connection.receives_receive
    rw [hfound] at hreceives
    cases hreceives with
    | packet =>
      have hpackets := congrArg (fun r : Reception => r.packets.length) hstill
      simp at hpackets
    | malformed | cut | finished =>
      have hended := congrArg Reception.ending hstill
      rw [hending] at hended
      cases hended
    | more hheld =>
      have hnone := congrArg (fun r : Reception => r.connection.inbound.held) hstill
      exact absurd hnone.symm hheld
    | nothing hcut hheld hopen =>
      -- What is in the inbox could go on, but as the stream stands it is cut there.
      have hunread : r.connection.unread = r.connection.inbox.buffer := by
        rw [Connection.unread, hheld, List.append_nil]
      obtain ⟨ending, hrest⟩ : ∃ ending, Stream r.connection.inbox.level
          r.connection.inbox.maxPacketSize r.connection.unread [] ending := by
        rw [hunread]
        by_cases hbuffer : r.connection.inbox.buffer = []
        · rw [hbuffer]
          exact ⟨none, .finished⟩
        · exact ⟨_, .cut hbuffer hcut⟩
      refine ⟨ending, ?_, .inr ⟨rfl, hopen⟩⟩
      have hstream := h.goes [] [] ending (by rwa [List.append_nil])
      rwa [List.append_nil, List.append_nil] at hstream

theorem run_append (r : Reception) (arrivals arrivals' : List Arrival) :
    r.run (arrivals ++ arrivals') = (r.run arrivals).run arrivals' := List.foldl_append

theorem closed_run (r : Reception) (arrivals : List Arrival)
    (h : r.connection.inbound.closed = true ∨ .finish ∈ arrivals) :
    (r.run arrivals).connection.inbound.closed = true := by
  induction arrivals generalizing r with
  | nil => exact h.resolve_right List.not_mem_nil
  | cons arrival arrivals ih =>
    have hnext : (r.after arrival).connection.inbound.closed = true ∨ .finish ∈ arrivals := by
      cases arrival with
      | finish => exact .inl rfl
      | look => exact h.imp r.closed_look.trans (by simp)
      | chunk bytes =>
        rw [after]
        split
        · next hclosed => exact .inl hclosed
        · exact h.imp_right (by simp)
    exact ih _ hnext

/-- What a connection reads is a matter of the stream alone, however its bytes arrive and however
often the connection looks for packets in vain. It never reads anything but the packets of the
stream in their order, it ends only as the stream does, and after enough looks it has come as far as
the bytes that have arrived. A frame that has come whole is never found incomplete. -/
theorem reads_stream (c : Connection) (arrivals : List Arrival) (more : Nat) :
    let level := c.inbox.level
    let limit := c.inbox.maxPacketSize
    let start : Reception := { connection := c }
    let s := c.unread ++ start.coming arrivals
    let reading := start.run arrivals
    let settled := reading.run (List.replicate (2 * s.length + 1 + more) .look)
    (∃ ps ending, (∀ ps' ending', Stream level limit s ps' ending' ↔ ps' = ps ∧ ending' = ending) ∧
        (reading.packets <+: ps ∧ ∀ e ∈ reading.ending, reading.packets = ps ∧ e = ending) ∧
        settled.packets = ps ∧
        (settled.ending = some ending ∨
          settled.ending = none ∧ c.inbound.closed = false ∧ .finish ∉ arrivals)) ∧
      ∀ b n, Packet.frameLength b limit = .ok (some n) → n ≤ b.length →
        Packet.decode [b.take n] level limit ≠ .ok none := by
  intro level limit start s reading settled
  refine ⟨?_, fun b n hn hle => ?_⟩
  · obtain ⟨ps, ending, hstream⟩ := Stream.exists_of level limit s
    have hreading : reading.Tracks level limit s := tracks_run (.start c) arrivals
    have hcoming : reading.coming (List.replicate (2 * s.length + 1 + more) .look) = [] := by
      have hnone : ∀ k, Arrival.delivered (List.replicate k .look) = [] := by
        intro k
        induction k with
        | zero => rfl
        | succ k ih => exact ih
      rw [coming, hnone, ite_self]
    have hsettled : settled.Tracks level limit s := by
      have hrun := tracks_run hreading (List.replicate (2 * s.length + 1 + more) .look)
      rwa [hcoming, List.append_nil] at hrun
    have heffort := hreading.effort_le
    obtain ⟨ending', hstream', hend⟩ := hsettled.stream_of_still (still_run_looks (by omega))
    obtain ⟨hps, rfl⟩ := hstream.unique hstream'
    refine ⟨ps, ending', fun ps' e => ⟨hstream.unique, ?_⟩, ⟨?_, fun e he => ?_⟩, hps, ?_⟩
    · rintro ⟨rfl, rfl⟩
      exact hstream
    · obtain ⟨left, e, hleft⟩ := Stream.exists_of level limit reading.connection.unread
      have hwhole := hreading.goes [] left e (by rwa [List.append_nil])
      rw [List.append_nil] at hwhole
      exact ⟨left, (hstream.unique hwhole).1⟩
    · have hended := hreading.ended e he [] fun _ => rfl
      rw [List.append_nil] at hended
      exact hstream.unique hended
    · refine hend.imp_right fun ⟨hnone, hopen⟩ => ⟨hnone, ?_⟩
      have hclosed := start.closed_run (arrivals ++ List.replicate (2 * s.length + 1 + more) .look)
      rw [run_append] at hclosed
      refine ⟨Bool.eq_false_iff.2 fun htrue => ?_, fun hmem => ?_⟩
      · exact Bool.false_ne_true (hopen.symm.trans (hclosed (.inl htrue)))
      · exact Bool.false_ne_true
          (hopen.symm.trans (hclosed (.inr (List.mem_append_left _ hmem))))
  · rcases Packet.decode_frame level hn hle with ⟨e, hdecode⟩ | ⟨p, hdecode⟩ <;>
      rw [hdecode] <;> exact nofun

end Reception

end MqttBroker
