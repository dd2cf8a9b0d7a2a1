import MqttBroker.Proofs.Session.Acknowledgement
/-!
How a message in flight gets its identifier. The candidates are tried in turn for as long as it
takes; with fewer messages in flight than identifiers it takes at most one candidate for each of
them and one more.
-/

namespace MqttBroker.Window

/-- From `id` on, `k` candidates are tried, and the last of them is the first that is not taken. -/
inductive Searches (taken : UInt16 → Bool) : UInt16 → Nat → UInt16 → Prop
  | found {id : UInt16} (hfree : taken id = false) : Searches taken id 1 id
  | skip {id id' : UInt16} {k : Nat} (htaken : taken id = true)
    (h : Searches taken (successor id) k id') : Searches taken id (k + 1) id'

namespace Searches

variable {taken : UInt16 → Bool} {id id' : UInt16} {k n : Nat}

theorem free (h : Searches taken id k id') : taken id' = false := by
  induction h with
  | found hfree => exact hfree
  | skip _ _ ih => exact ih

theorem ne_zero (h : Searches taken id k id') (hid : id ≠ 0) : id' ≠ 0 := by
  induction h with
  | found => exact hid
  | skip _ _ ih => exact ih (successor_ne_zero _)

/-- A search that is given up after `n` candidates finds the same if it takes no more. -/
theorem freshFrom_eq (h : Searches taken id k id') (hk : k ≤ n) :
    freshFrom taken n id = id' := by
  induction h generalizing n with
  | found hfree =>
    obtain ⟨n, rfl⟩ := Nat.exists_eq_add_one_of_ne_zero (Nat.ne_of_gt hk)
    rw [freshFrom, hfree]
    rfl
  | skip htaken _ ih =>
    obtain ⟨n, rfl⟩ := Nat.exists_eq_add_one_of_ne_zero (Nat.ne_of_gt (Nat.zero_lt_of_lt hk))
    rw [freshFrom, if_pos htaken]
    exact ih (Nat.le_of_succ_le_succ hk)

/-- A search ends where a candidate is free at the latest. -/
theorem exists_of_candidate (hfree : taken (candidate id n) = false) :
    ∃ k id', k ≤ n + 1 ∧ Searches taken id k id' := by
  induction n generalizing id with
  | zero => exact ⟨1, id, Nat.le_refl 1, .found hfree⟩
  | succ n ih =>
    cases htaken : taken id with
    | false => exact ⟨1, id, Nat.succ_le_succ (Nat.zero_le _), .found htaken⟩
    | true =>
      rw [← candidate_successor] at hfree
      obtain ⟨k, id', hk, h⟩ := ih hfree
      exact ⟨k + 1, id', Nat.succ_le_succ hk, .skip htaken h⟩

end Searches

/-- The windows that there can be: a message comes in when the search for its identifier ends, and
then any replies may come. -/
inductive Reachable : Window → Prop
  | empty : Reachable {}
  | insert {w : Window} (h : Reachable w) {k : Nat} {id : UInt16}
    (hsearch : Searches w.holds w.nextId k id) (p : Publication) :
    Reachable
      { entries := w.entries ++ [{ packetId := id, publication := p }], nextId := successor id }
  | reply {w : Window} (h : Reachable w) (id : UInt16) (r : Reply) : Reachable (w.reply id r).1

/-- The messages that a reply can take out of the window. -/
def Reply.ends (id : UInt16) : Reply → InFlight → Bool
  | ack, e => e.awaits = some (.pubAck id)
  | received, _ => false
  | complete, e => e.awaits = some (.pubComp id)
  | abandon, e => e.packetId = id

/-- A reply changes nothing, takes a message out, or is a PUBREC that is noted down. -/
theorem reply_cases (w : Window) (id : UInt16) (r : Reply) :
    (w.reply id r).1 = w ∨
      (w.reply id r).1 = { w with entries := w.entries.eraseP (r.ends id) } ∨
      w.Releases id (w.reply id r).1 := by
  have hends : w.Removes (r.ends id) (w.reply? id r) →
      (w.reply id r).1 = w ∨
        (w.reply id r).1 = { w with entries := w.entries.eraseP (r.ends id) } := by
    rintro (⟨hnone, -⟩ | hsome)
    · exact .inl (congrArg Prod.fst (reply_of_none hnone))
    · exact .inr (congrArg Prod.fst (reply_of_some hsome))
  cases r with
  | ack => exact (hends (w.removes_ack? id)).imp_right .inl
  | complete => exact (hends (w.removes_complete? id)).imp_right .inl
  | abandon => exact (hends (w.removes_abandon? id)).imp_right .inl
  | received =>
    cases hreceived : w.received? id with
    | none => exact .inl (congrArg Prod.fst (reply_of_none (r := .received) hreceived))
    | some w' =>
      rw [reply_of_some (r := .received) hreceived]
      exact (received?_eq_some hreceived).imp And.left .inr

theorem Numbered.reply {w : Window} (h : w.Numbered) (id : UInt16) (r : Reply) :
    (w.reply id r).1.Numbered := by
  rcases w.reply_cases id r with heq | heq | hreleases
  · rw [heq]
    exact h
  · rw [heq]
    exact h.sublist List.eraseP_sublist rfl
  · exact h.of_releases hreleases

theorem size_reply_le (w : Window) (id : UInt16) (r : Reply) : (w.reply id r).1.size ≤ w.size := by
  rcases w.reply_cases id r with heq | heq | hreleases
  · exact Nat.le_of_eq (congrArg size heq)
  · rw [heq]
    exact List.length_eraseP_le
  · exact Nat.le_of_eq hreleases.size_eq

/-- A QoS 1 message stays, unless the reply takes it out. -/
theorem mem_reply {w : Window} {e : InFlight} (he : e ∈ w.entries)
    (hqos : e.publication.qos = .atLeastOnce) {id : UInt16} {r : Reply}
    (hends : r.ends id e = false) : e ∈ (w.reply id r).1.entries := by
  rcases w.reply_cases id r with heq | heq | hreleases
  · rw [heq]
    exact he
  · rw [heq]
    exact (List.mem_eraseP_of_neg (by rw [hends]; exact Bool.false_ne_true)).2 he
  · generalize (w.reply id r).1 = w' at hreleases
    cases hreleases with
    | release hentries hawaits =>
      -- The message that is released has QoS 2.
      rw [hentries] at he
      rcases List.mem_cons.1 (List.perm_middle.mem_iff.1 he) with rfl | hother
      · cases hqos.symm.trans (InFlight.awaits_eq_pubRec.1 hawaits).2.1
      · exact List.perm_middle.mem_iff.2 (List.mem_cons_of_mem _ hother)

theorem Reachable.numbered {w : Window} (h : w.Reachable) : w.Numbered := by
  induction h with
  | empty => exact .empty
  | insert _ hsearch p ih => exact ih.concat hsearch.free (hsearch.ne_zero ih.next) p
  | reply _ id r ih => exact ih.reply id r

/-- Wherever the search begins, it ends. -/
theorem Numbered.exists_searches {w : Window} (h : w.Numbered) (hsize : w.size ≤ 65534)
    (next : UInt16) : ∃ k id, k ≤ w.size + 1 ∧ Searches w.holds next k id := by
  by_cases hnext : next = 0
  · have hfree : w.holds next = false :=
      List.any_eq_false.2 fun e he => by simpa [hnext] using h.nonzero e he
    exact ⟨1, next, Nat.succ_le_succ (Nat.zero_le _), .found hfree⟩
  · obtain ⟨n, hn, hfree⟩ := exists_free hnext (Nat.lt_succ_of_le hsize)
    obtain ⟨k, id, hk, hsearch⟩ := Searches.exists_of_candidate hfree
    exact ⟨k, id, Nat.le_trans hk (Nat.succ_le_succ hn), hsearch⟩

theorem insert_of_searches {w : Window} {k : Nat} {id : UInt16}
    (h : Searches w.holds w.nextId k id) (hk : k ≤ w.size + 1) (p : Publication) :
    w.insert p =
      ({ entries := w.entries ++ [{ packetId := id, publication := p }]
         nextId := successor id }, id) := by
  have hid : w.freshId = id := h.freshFrom_eq hk
  rw [insert, hid]

theorem Reachable.insert_of_size {w : Window} (h : w.Reachable) (hsize : w.size ≤ 65534)
    (p : Publication) : (w.insert p).1.Reachable := by
  obtain ⟨k, id, hk, hsearch⟩ := h.numbered.exists_searches hsize w.nextId
  rw [insert_of_searches hsearch hk]
  exact h.insert hsearch p

/-- Identifiers are told apart, and there is one for the next message. -/
structure Allocates (w : Window) : Prop where
  distinct : (w.entries.map InFlight.packetId).Nodup
  within : ∀ e ∈ w.entries, 1 ≤ e.packetId.toNat ∧ e.packetId.toNat ≤ 65535
  next : w.nextId ≠ 0
  /-- Whichever candidate is tried first, the search for a free one ends, and it is the identifier
  that the message gets. -/
  ends (hsize : w.size ≤ 65534) (next : UInt16) (p : Publication) :
    ∃ k ≤ w.size + 1, Searches w.holds next k ({ w with nextId := next }.insert p).2 ∧
      (∀ e ∈ w.entries, e.packetId ≠ ({ w with nextId := next }.insert p).2) ∧
      (next ≠ 0 → ({ w with nextId := next }.insert p).2 ≠ 0)

theorem Reachable.allocates {w : Window} (h : w.Reachable) : w.Allocates where
  distinct := h.numbered.distinct
  within e he := by
    have hlt := e.packetId.toNat_lt
    have hne : e.packetId.toNat ≠ 0 := fun hzero =>
      h.numbered.nonzero e he (UInt16.toNat_inj.1 hzero)
    omega
  next := h.numbered.next
  ends hsize next p := by
    obtain ⟨k, id, hk, hsearch⟩ := h.numbered.exists_searches hsize next
    have hinsert := insert_of_searches (w := { w with nextId := next }) hsearch hk p
    rw [hinsert]
    refine ⟨k, hk, hsearch, fun e he heq => ?_, hsearch.ne_zero⟩
    have htaken : w.holds id = true := List.any_eq_true.2 ⟨e, he, decide_eq_true heq⟩
    exact Bool.false_ne_true (hsearch.free.symm.trans htaken)

end MqttBroker.Window
