import MqttBroker.Packet.Decode
/-!
However a byte string is cut into segments, the same packet is read from it. Every reader agrees
with itself run on the plain bytes a cursor has in front of it; a reader built from readers that
agree agrees too.
-/

namespace MqttBroker

namespace Segments

theorem flatten_of_next?_eq_none {segments : List Bytes} (h : next? segments = none) :
    segments.flatten = [] := by
  fun_induction next? segments with
  | case1 => rfl
  | case2 later ih => simpa using ih h
  | case3 => simp at h

theorem length_lt_of_gather?_eq_none {n : Nat} {segments : List Bytes}
    (h : gather? n segments = none) : segments.flatten.length < n := by
  fun_induction gather? n segments with
  | case1 => simp at h
  | case2 => simp
  | case3 => simp at h
  | case4 n s later hn ih =>
    -- The first segment has too few bytes, so the later ones were asked and fell short as well.
    rw [List.length_take] at hn
    cases hmore : gather? (n + 1 - s.length) later with
    | none =>
      have := ih hmore
      simp only [List.flatten_cons, List.length_append]
      omega
    | some found => simp [hmore] at h

end Segments

namespace Cursor

theorem length_content (c : Cursor) : c.content.length = c.remaining := by
  rw [content, List.length_take]
  exact Nat.min_eq_left c.remaining_le

theorem content_start (segments : List Bytes) : (start segments).content = segments.flatten :=
  List.take_length

theorem content_window (n : Nat) (c : Cursor) : (c.window n).content = c.content.take n := by
  simp only [content, window, List.take_take]

theorem byte_content (c : Cursor) :
    c.byte.map (Prod.map id content) = Source.byte c.content := by
  unfold byte
  split
  · next h => simp [content, h]; rfl
  · next h =>
    have hle := c.remaining_le
    split
    · next hnone =>
      rw [Segments.flatten_of_next?_eq_none hnone] at hle
      simp at hle
      omega
    · next b later hsome =>
      obtain ⟨n, hn⟩ := Nat.exists_eq_succ_of_ne_zero h
      simp [content, Segments.flatten_of_next? hsome, hn]
      rfl

/-- A cursor is at its end or has a next byte, and so have the bytes in front of it. -/
theorem byte_cases (c : Cursor) :
    ((∃ e, Source.byte c = .error e) ∧ c.content = []) ∨
      ∃ b left, Source.byte c = .ok (b, left) ∧ c.content = b :: content left := by
  have h := c.byte_content
  change (Source.byte c).map _ = _ at h
  cases hc : Source.byte c with
  | error e =>
    cases hbytes : c.content with
    | nil => exact .inl ⟨⟨e, rfl⟩, rfl⟩
    | cons b rest => simp [hc, hbytes, Except.map] at h
  | ok found =>
    cases hbytes : c.content with
    | nil => simp [hc, hbytes, Except.map] at h
    | cons b rest =>
      obtain ⟨rfl, rfl⟩ : found.1 = b ∧ found.2.content = rest := by
        simpa [hc, hbytes, Except.map, Prod.ext_iff] using h
      exact .inr ⟨found.1, found.2, rfl, rfl⟩

theorem take_content (n : Nat) (c : Cursor) :
    (c.take n).map (Prod.map id content) = Source.take n c.content := by
  have hle := c.remaining_le
  have hlen := c.length_content
  unfold take
  split
  · next h =>
    rw [Source.take_of_lt (by omega)]
    rfl
  · next h =>
    rw [Source.take_of_le (by omega)]
    split
    · next hnone =>
      have := Segments.length_lt_of_gather?_eq_none hnone
      omega
    · next front later hsome =>
      obtain ⟨hflat, hfront⟩ := Segments.flatten_of_gather? hsome
      have htake : c.content.take n = front := by
        rw [content, List.take_take, Nat.min_eq_left (by omega), hflat, ← hfront, List.take_left]
      have hdrop : c.content.drop n = later.flatten.take (c.remaining - n) := by
        rw [content, List.drop_take, hflat, ← hfront, List.drop_left]
      rw [htake, hdrop]
      rfl

end Cursor

namespace FieldReader

variable {α β : Type}

/-- Two readers find the same in a cursor and in the bytes it has in front of it. -/
def Agrees (r : FieldReader Cursor α) (r' : FieldReader Bytes α) : Prop :=
  ∀ c, Except.map (Prod.map id Cursor.content) (r c) = r' c.content

namespace Agrees

theorem pure (a : α) : Agrees (Pure.pure a) (Pure.pure a) := fun _ => rfl

theorem throw (e : DecodeError) : Agrees (α := α) (MonadExcept.throw e) (MonadExcept.throw e) :=
  fun _ => rfl

theorem bind {r : FieldReader Cursor α} {r' : FieldReader Bytes α}
    {f : α → FieldReader Cursor β} {f' : α → FieldReader Bytes β}
    (hr : Agrees r r') (hf : ∀ a, Agrees (f a) (f' a)) : Agrees (r >>= f) (r' >>= f') := by
  intro c
  have h := hr c
  change Except.map (Prod.map id Cursor.content) (r c >>= fun p => f p.1 p.2)
    = r' c.content >>= fun p => f' p.1 p.2
  rw [← h]
  cases hc : r c with
  | error e => rfl
  | ok found => exact hf found.1 found.2

theorem map {r : FieldReader Cursor α} {r' : FieldReader Bytes α} (f : α → β)
    (hr : Agrees r r') : Agrees (f <$> r) (f <$> r') := by
  simpa only [map_eq_pure_bind] using hr.bind fun a => pure (f a)

theorem ite {p : Prop} [Decidable p] {r s : FieldReader Cursor α} {r' s' : FieldReader Bytes α}
    (hr : Agrees r r') (hs : Agrees s s') :
    Agrees (if p then r else s) (if p then r' else s') := by
  split
  · exact hr
  · exact hs

theorem byte : Agrees FieldReader.byte FieldReader.byte := Cursor.byte_content

theorem take (n : Nat) : Agrees (FieldReader.take n) (FieldReader.take n) :=
  Cursor.take_content n

theorem remaining : Agrees FieldReader.remaining FieldReader.remaining := by
  intro c
  change Except.ok (c.remaining, c.content) = Except.ok (c.content.length, c.content)
  rw [Cursor.length_content]

theorem rest : Agrees FieldReader.rest FieldReader.rest := remaining.bind take

theorem refuseIf (bad : Bool) (e : DecodeError) :
    Agrees (FieldReader.refuseIf bad e) (FieldReader.refuseIf bad e) :=
  ite (throw e) (pure ())

theorem unlessAtEnd (a : α) {r : FieldReader Cursor α} {r' : FieldReader Bytes α}
    (hr : Agrees r r') : Agrees (FieldReader.unlessAtEnd a r) (FieldReader.unlessAtEnd a r') :=
  remaining.bind fun _ => ite (pure a) hr

theorem within (n : Nat) {r : FieldReader Cursor α} {r' : FieldReader Bytes α}
    (hr : Agrees r r') : Agrees (FieldReader.within n r) (FieldReader.within n r') := by
  intro c
  have hbehind := take n c
  have hwindow := hr (c.window n)
  rw [Cursor.content_window] at hwindow
  change Except.map _ (FieldReader.take n c >>= fun p => r (c.window n) >>= fun q => .ok (q.1, p.2))
    = FieldReader.take n c.content >>= fun p => r' (c.content.take n) >>= fun q => .ok (q.1, p.2)
  rw [← hbehind, ← hwindow]
  cases FieldReader.take n c with
  | error e => rfl
  | ok behind => cases r (c.window n) <;> rfl

theorem word : Agrees FieldReader.word FieldReader.word :=
  byte.bind fun _ => byte.bind fun _ => pure _

theorem long : Agrees FieldReader.long FieldReader.long :=
  word.bind fun _ => word.bind fun _ => pure _

theorem varintFrom (rounds : Nat) (shift value : UInt32) :
    Agrees (FieldReader.varintFrom rounds shift value)
      (FieldReader.varintFrom rounds shift value) := by
  induction rounds generalizing shift value with
  | zero => exact throw _
  | succ rounds ih =>
    apply byte.bind
    intro b
    exact ite (pure _) (ih _ _)

theorem varint : Agrees FieldReader.varint FieldReader.varint := varintFrom 4 0 0

theorem binary : Agrees FieldReader.binary FieldReader.binary := word.bind fun n => take n.toNat

theorem utf8 : Agrees FieldReader.utf8 FieldReader.utf8 :=
  binary.bind fun _ => (refuseIf _ _).bind fun _ => pure _

theorem text : Agrees FieldReader.text FieldReader.text := by
  apply binary.bind
  intro raw
  cases raw.toText? with
  | none => exact throw _
  | some s => exact pure s

theorem many {item : FieldReader Cursor α} {item' : FieldReader Bytes α} (h : Agrees item item') :
    Agrees (FieldReader.many item) (FieldReader.many item') := by
  have hgo : ∀ rounds found,
      Agrees (FieldReader.many.go item rounds found) (FieldReader.many.go item' rounds found) := by
    intro rounds
    induction rounds with
    | zero =>
      intro found
      exact remaining.bind fun _ => ite (pure _) (throw _)
    | succ rounds ih =>
      intro found
      apply remaining.bind
      intro n
      exact ite (pure _) (h.bind fun a => ih (a :: found))
  exact remaining.bind fun n => hgo n []

theorem optional (present : Bool) {r : FieldReader Cursor α} {r' : FieldReader Bytes α}
    (hr : Agrees r r') :
    Agrees (FieldReader.optional present r) (FieldReader.optional present r') :=
  ite (hr.map some) (pure none)

theorem qosOf (value : UInt8) : Agrees (FieldReader.qosOf value) (FieldReader.qosOf value) := by
  unfold FieldReader.qosOf
  cases QoS.ofCode? value with
  | none => exact throw _
  | some qos => exact pure qos

theorem packetId : Agrees FieldReader.packetId FieldReader.packetId :=
  word.bind fun _ => (refuseIf _ _).bind fun _ => pure _

theorem topicName : Agrees FieldReader.topicName FieldReader.topicName :=
  utf8.bind fun _ => (refuseIf _ _).bind fun _ => pure _

end Agrees

end FieldReader

open FieldReader

theorem Shape.read_agrees : ∀ shape : Shape, Agrees shape.read shape.read
  | .byte => .byte
  | .word => .word
  | .long => .long
  | .varint => .varint
  | .text => .text
  | .binary => .binary
  | .textPair => Agrees.text.bind fun _ => Agrees.text.bind fun _ => .pure _

theorem Property.read_agrees : Agrees Property.read Property.read := by
  apply Agrees.varint.bind
  intro id
  cases PropertyName.ofId? id with
  | none => exact .throw _
  | some name => exact name.shape.read_agrees.bind fun _ => .pure _

theorem Properties.read_agrees : Agrees Properties.read Properties.read :=
  Agrees.varint.bind fun size => .within size (.many Property.read_agrees)

theorem Properties.readAt_agrees (v5 : Bool) :
    Agrees (Properties.readAt v5) (Properties.readAt v5) :=
  .ite Properties.read_agrees (.pure _)

theorem ReasonTail.read_agrees : Agrees ReasonTail.read ReasonTail.read :=
  .unlessAtEnd _ <| Agrees.byte.bind fun _ =>
    .unlessAtEnd _ <| Properties.read_agrees.bind fun _ => .pure _

theorem ReasonTail.readAt_agrees (v5 : Bool) :
    Agrees (ReasonTail.readAt v5) (ReasonTail.readAt v5) :=
  .ite ReasonTail.read_agrees (.pure _)

theorem Will.read_agrees (v5 : Bool) (flags : ConnectFlags) :
    Agrees (Will.read v5 flags) (Will.read v5 flags) :=
  (Properties.readAt_agrees v5).bind fun _ => Agrees.topicName.bind fun _ =>
    Agrees.binary.bind fun _ => (Agrees.qosOf _).bind fun _ => .pure _

theorem Connect.read_agrees : Agrees Connect.read Connect.read :=
  Agrees.utf8.bind fun _ => Agrees.byte.bind fun _ => Agrees.byte.bind fun _ =>
    Agrees.word.bind fun _ => (Agrees.refuseIf _ _).bind fun _ =>
    (Properties.readAt_agrees _).bind fun _ => Agrees.utf8.bind fun _ =>
    (Agrees.optional _ (Will.read_agrees _ _)).bind fun _ =>
    (Agrees.optional _ Agrees.utf8).bind fun _ =>
    (Agrees.optional _ Agrees.binary).bind fun _ => .pure _

theorem ConnAck.read_agrees (v5 : Bool) : Agrees (ConnAck.read v5) (ConnAck.read v5) :=
  Agrees.byte.bind fun _ => (Agrees.refuseIf _ _).bind fun _ => Agrees.byte.bind fun _ =>
    (Properties.readAt_agrees v5).bind fun _ => .pure _

theorem Publish.read_agrees (flags : UInt8) (v5 : Bool) :
    Agrees (Publish.read flags v5) (Publish.read flags v5) :=
  (Agrees.qosOf _).bind fun _ => (Agrees.refuseIf _ _).bind fun _ => Agrees.topicName.bind fun _ =>
    (Agrees.optional _ Agrees.packetId).bind fun _ => (Properties.readAt_agrees v5).bind fun _ =>
    Agrees.rest.bind fun _ => .pure _

theorem Ack.read_agrees (v5 : Bool) : Agrees (Ack.read v5) (Ack.read v5) :=
  Agrees.packetId.bind fun _ => (ReasonTail.readAt_agrees v5).bind fun _ => .pure _

theorem SubscriptionOptions.ofByte_agrees (v5 : Bool) (b : UInt8) :
    Agrees (SubscriptionOptions.ofByte v5 b) (SubscriptionOptions.ofByte v5 b) :=
  (Agrees.refuseIf _ _).bind fun _ => (Agrees.qosOf _).bind fun _ => .pure _

theorem Subscribe.readFilter_agrees (v5 : Bool) :
    Agrees (Subscribe.readFilter v5) (Subscribe.readFilter v5) :=
  Agrees.utf8.bind fun _ => Agrees.byte.bind fun b =>
    (SubscriptionOptions.ofByte_agrees v5 b).bind fun _ => .pure _

theorem Subscribe.read_agrees (v5 : Bool) : Agrees (Subscribe.read v5) (Subscribe.read v5) :=
  Agrees.packetId.bind fun _ => (Properties.readAt_agrees v5).bind fun _ =>
    (Agrees.many (Subscribe.readFilter_agrees v5)).bind fun _ =>
    (Agrees.refuseIf _ _).bind fun _ => .pure _

theorem SubAck.read_agrees (v5 : Bool) : Agrees (SubAck.read v5) (SubAck.read v5) :=
  Agrees.packetId.bind fun _ => (Properties.readAt_agrees v5).bind fun _ =>
    Agrees.rest.bind fun _ => .pure _

theorem Unsubscribe.read_agrees (v5 : Bool) : Agrees (Unsubscribe.read v5) (Unsubscribe.read v5) :=
  Agrees.packetId.bind fun _ => (Properties.readAt_agrees v5).bind fun _ =>
    (Agrees.many Agrees.utf8).bind fun _ => (Agrees.refuseIf _ _).bind fun _ => .pure _

theorem UnsubAck.read_agrees (v5 : Bool) : Agrees (UnsubAck.read v5) (UnsubAck.read v5) :=
  Agrees.packetId.bind fun _ =>
    .ite (Properties.read_agrees.bind fun _ => Agrees.rest.bind fun _ => .pure _) (.pure _)

namespace Header

theorem readLength_content (rounds place value used : Nat) (c : Cursor) :
    (readLength rounds place value used c).map
        (Option.map fun found => (found.1, found.2.1, Cursor.content found.2.2))
      = readLength rounds place value used c.content := by
  induction rounds generalizing place value used c with
  | zero => rfl
  | succ rounds ih =>
    simp only [readLength]
    obtain ⟨⟨e, hc⟩, hbytes⟩ | ⟨b, left, hc, hbytes⟩ := c.byte_cases
    · rw [hc, hbytes]
      rfl
    · rw [hc, hbytes, Source.byte_cons]
      by_cases hb : b < 128
      · simp only [if_pos hb]
        rfl
      · simp only [if_neg hb]
        exact ih _ _ _ left

theorem read?_content (c : Cursor) :
    (read? c).map (Option.map fun found => (found.1, Cursor.content found.2)) =
      read? c.content := by
  simp only [read?]
  obtain ⟨⟨e, hc⟩, hbytes⟩ | ⟨first, left, hc, hbytes⟩ := c.byte_cases
  · rw [hc, hbytes]
    rfl
  · rw [hc, hbytes, Source.byte_cons]
    by_cases hfirst : first < 16
    · simp only [if_pos hfirst]
      rfl
    · simp only [if_neg hfirst]
      rw [← readLength_content]
      rcases readLength 4 1 0 1 left with e | _ | found <;> rfl

end Header

namespace Packet

theorem readBody_agrees (kind : Kind) (flags : UInt8) (level : Level) :
    Agrees (readBody kind flags level) (readBody kind flags level) := by
  cases kind with
  | connect => exact Connect.read_agrees.map _
  | connAck => exact (ConnAck.read_agrees _).map _
  | publish => exact (Publish.read_agrees _ _).map _
  | pubAck => exact (Ack.read_agrees _).map _
  | pubRec => exact (Ack.read_agrees _).map _
  | pubRel => exact (Ack.read_agrees _).map _
  | pubComp => exact (Ack.read_agrees _).map _
  | subscribe => exact (Subscribe.read_agrees _).map _
  | subAck => exact (SubAck.read_agrees _).map _
  | unsubscribe => exact (Unsubscribe.read_agrees _).map _
  | unsubAck => exact (UnsubAck.read_agrees _).map _
  | pingReq => exact .pure _
  | pingResp => exact .pure _
  | disconnect => exact (ReasonTail.readAt_agrees _).map _
  | auth => exact .ite (ReasonTail.read_agrees.map _) (.throw _)

theorem decodeFrom_content (c : Cursor) (level : Level) (limit : Nat) :
    decodeFrom c level limit = decodeFrom c.content level limit := by
  unfold decodeFrom
  rw [← Header.read?_content]
  rcases Header.read? c with e | _ | ⟨h, s⟩
  · rfl
  · rfl
  · -- Size, kind and flags are checked on the header, which is the same on both sides.
    change (h.total limit >>= _) = (h.total limit >>= _)
    congr 1
    funext size
    congr 1
    funext kind
    congr 1
    funext _
    have hbody := readBody_agrees kind h.flags level (s.window h.remaining)
    rw [Cursor.content_window] at hbody
    rw [Source.remaining_bytes, Source.window_bytes, Cursor.length_content, ← hbody]
    change (if s.remaining < h.remaining then _ else _) = _
    by_cases hshort : s.remaining < h.remaining
    · rw [if_pos hshort, if_pos hshort]
    · rw [if_neg hshort, if_neg hshort]
      change readBody kind h.flags level (s.window h.remaining) >>= _ = _
      rcases readBody kind h.flags level (s.window h.remaining) with e | ⟨packet, left⟩
      · rfl
      · have hleft : Source.remaining left = Source.remaining left.content :=
          left.length_content.symm
        change (if Source.remaining left = 0 then _ else _) = _
        rw [hleft]
        rfl

/-- Decoding segments is decoding the bytes they add up to. -/
theorem decode_eq_decodeFrom (segments : List Bytes) (level : Level) (limit : Nat) :
    decode segments level limit = decodeFrom segments.flatten level limit := by
  rw [decode, decodeFrom_content, Cursor.content_start]

/-- However the input is cut, empty segments included, the outcome is that of the one segment which
holds it all: the same packet and size, the same wait for more, the same error. -/
theorem decode_flatten (segments : List Bytes) (level : Level) (limit : Nat) :
    decode segments level limit = decode [segments.flatten] level limit := by
  rw [decode_eq_decodeFrom, decode_eq_decodeFrom, List.flatten_singleton]

end Packet

end MqttBroker
