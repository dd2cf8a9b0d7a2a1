import MqttBroker.Proofs.Packet.Frame
import MqttBroker.Proofs.Packet.Segmentation
/-!
Decoding while bytes arrive. An outcome other than a request for more is final, and a packet is
found as soon as its last byte is there, not before.
-/

namespace MqttBroker

namespace Packet

variable {b : Bytes} {level : Level} {limit n : Nat} {p : Packet}

theorem decodeFrom_append (x : Bytes) (hfinal : decodeFrom b level limit ≠ .ok none) :
    decodeFrom (b ++ x) level limit = decodeFrom b level limit := by
  rcases hread : Header.read? b with e | (_ | ⟨h, left⟩)
  · rw [decodeFrom_of_header_error hread,
      decodeFrom_of_header_error (Header.read?_append_of_error x hread)]
  · exact absurd (decodeFrom_of_header_none hread) hfinal
  · rw [decodeFrom_of_header hread] at hfinal ⊢
    rw [decodeFrom_of_header (Header.read?_append_of_some x hread)]
    rcases haccept : h.accept limit with e | ⟨size, kind⟩
    · rfl
    rw [haccept] at hfinal
    -- An incomplete body would ask for more, so the window on the body ends before `x`.
    have hle : h.remaining ≤ left.length :=
      Nat.not_lt.1 fun hlt => hfinal (if_pos hlt)
    have hle' : h.remaining ≤ (left ++ x).length := by
      rw [List.length_append]
      omega
    refine (if_neg (Nat.not_lt.2 hle')).trans (Eq.trans ?_ (if_neg (Nat.not_lt.2 hle)).symm)
    rw [List.take_append_of_le_length hle]

theorem decodeFrom_take {k : Nat} (hdecode : decodeFrom b level limit = .ok (some (p, n)))
    (hk : k < n) : decodeFrom (b.take k) level limit = .ok none := by
  obtain ⟨h, left, kind, hread, haccept, hle, -⟩ := decodeFrom_eq_some_iff.1 hdecode
  obtain ⟨rfl, -⟩ := Header.accept_eq_ok.1 haccept
  rcases Nat.lt_or_ge k h.size with hlt | hge
  · exact decodeFrom_of_header_none (Header.read?_take hread hlt)
  · rw [decodeFrom_of_header (Header.read?_take_of_le hread hge), haccept]
    refine if_pos ?_
    rw [List.length_take]
    omega

/-- A packet or an error stays the outcome when more bytes come behind, and a packet of `n` bytes is
within the limit, was there as a whole, and was asked for until its last byte came. -/
theorem decode_stable (b x : Bytes) (level : Level) (limit : Nat) :
    (decode [b] level limit ≠ .ok none →
      decode [b ++ x] level limit = decode [b] level limit) ∧
    ∀ p n, decode [b] level limit = .ok (some (p, n)) →
      n ≤ b.length ∧ n ≤ limit ∧
        ∀ front, front <+: b → front.length < n → decode [front] level limit = .ok none := by
  simp only [decode_eq_decodeFrom, List.flatten_singleton]
  refine ⟨decodeFrom_append x, fun p n hdecode => ?_⟩
  refine ⟨le_length_of_decodeFrom hdecode, le_limit_of_decodeFrom hdecode, ?_⟩
  intro front hfront hlt
  rw [List.prefix_iff_eq_take.1 hfront]
  exact decodeFrom_take hdecode hlt

/-- A PUBACK with two bytes of the next packet behind it. -/
theorem decode_stable_pubAck :
    decode [[0x40, 0x02, 0x00, 0x07] ++ [0xC0, 0x00]] .v311 4 =
        .ok (some (pubAck { packetId := 7 }, 4)) ∧
      decode [[0x40, 0x02, 0x00]] .v311 4 = .ok none := by
  have hdecode : decode [[0x40, 0x02, 0x00, 0x07]] .v311 4 =
      .ok (some (pubAck { packetId := 7 }, 4)) := by rfl
  obtain ⟨happend, hfound⟩ := decode_stable [0x40, 0x02, 0x00, 0x07] [0xC0, 0x00] .v311 4
  refine ⟨(happend (by rw [hdecode]; nofun)).trans hdecode, ?_⟩
  obtain ⟨-, -, hmore⟩ := hfound _ 4 hdecode
  exact hmore [0x40, 0x02, 0x00] ⟨[0x07], rfl⟩ (by decide)

end Packet

end MqttBroker
