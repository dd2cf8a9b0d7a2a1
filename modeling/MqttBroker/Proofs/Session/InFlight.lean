import Mathlib.Data.List.Nodup
import Mathlib.Data.List.Perm.Basic
import MqttBroker.Proofs.Packet.Answered
import MqttBroker.Session.Window
/-!
The in-flight window by what each of its messages waits for, and its identifiers: no two messages of
a window that is filled up to a limit share one, and none is 0.
-/

namespace MqttBroker

/-- The answer that takes the message further. -/
def InFlight.awaits (e : InFlight) : Option Answer :=
  match e.stage, e.publication.qos with
  | .sent, .atLeastOnce => some (.pubAck e.packetId)
  | .sent, .exactlyOnce => some (.pubRec e.packetId)
  | .released, .exactlyOnce => some (.pubComp e.packetId)
  | _, _ => none

theorem InFlight.awaits_eq_pubAck {e : InFlight} {id : UInt16} :
    e.awaits = some (.pubAck id) ↔
      e.packetId = id ∧ e.publication.qos = .atLeastOnce ∧ e.stage = .sent := by
  unfold awaits
  cases e.stage <;> cases e.publication.qos <;> simp

theorem InFlight.awaits_eq_pubRec {e : InFlight} {id : UInt16} :
    e.awaits = some (.pubRec id) ↔
      e.packetId = id ∧ e.publication.qos = .exactlyOnce ∧ e.stage = .sent := by
  unfold awaits
  cases e.stage <;> cases e.publication.qos <;> simp

theorem InFlight.awaits_eq_pubComp {e : InFlight} {id : UInt16} :
    e.awaits = some (.pubComp id) ↔
      e.packetId = id ∧ e.publication.qos = .exactlyOnce ∧ e.stage = .released := by
  unfold awaits
  cases e.stage <;> cases e.publication.qos <;> simp

namespace Window

/-- Without the first entry that satisfies `p`, if there is one. -/
def Removes (w : Window) (p : InFlight → Bool) (window? : Option Window) : Prop :=
  (window? = none ∧ w.entries.find? p = none) ∨
    window? = some { w with entries := w.entries.eraseP p }

theorem removes_ite (w : Window) (p : InFlight → Bool) {found : Bool}
    (hfound : found = w.entries.any p) {window : Window}
    (hwindow : window = { w with entries := w.entries.eraseP p }) :
    w.Removes p (if found then some window else none) := by
  cases found with
  | true => exact .inr (by rw [if_pos rfl, hwindow])
  | false =>
    refine .inl ⟨if_neg Bool.false_ne_true, List.find?_eq_none.2 fun e he hp => ?_⟩
    exact Bool.false_ne_true (hfound.trans (List.any_eq_true.2 ⟨e, he, hp⟩))

theorem removes_ack? (w : Window) (id : UInt16) :
    w.Removes (fun e => e.awaits = some (.pubAck id)) (w.ack? id) := by
  have heq : (fun e : InFlight => decide (e.awaits = some (.pubAck id))) =
      fun e => e.packetId = id && (e.publication.qos = .atLeastOnce && e.stage = .sent) := by
    funext e
    simp only [InFlight.awaits_eq_pubAck, Bool.decide_and]
  rw [heq]
  exact w.removes_ite _ (by simp only [has, Bool.and_assoc]) rfl

theorem removes_complete? (w : Window) (id : UInt16) :
    w.Removes (fun e => e.awaits = some (.pubComp id)) (w.complete? id) := by
  have heq : (fun e : InFlight => decide (e.awaits = some (.pubComp id))) =
      fun e => e.packetId = id && (e.publication.qos = .exactlyOnce && e.stage = .released) := by
    funext e
    simp only [InFlight.awaits_eq_pubComp, Bool.decide_and]
  rw [heq]
  exact w.removes_ite _ (by simp only [has, Bool.and_assoc]) rfl

theorem removes_abandon? (w : Window) (id : UInt16) :
    w.Removes (fun e => e.packetId = id) (w.abandon? id) :=
  w.removes_ite _ rfl (by simp only [remove, Bool.and_true])

/-- From `w` to `w'` one message has come to wait for PUBCOMP in place of PUBREC. -/
inductive Releases (w : Window) (id : UInt16) : Window → Prop
  | release {front back : List InFlight} {e : InFlight} (hentries : w.entries = front ++ e :: back)
    (hawaits : e.awaits = some (.pubRec id)) :
    Releases w id { w with entries := front ++ Window.release e :: back }

namespace Releases

variable {w w' : Window} {id : UInt16}

theorem map_eq {α : Type} {f : InFlight → α} (hf : ∀ e, f (Window.release e) = f e)
    (h : w.Releases id w') : w'.entries.map f = w.entries.map f := by
  cases h with
  | release hentries => simp only [hentries, List.map_append, List.map_cons, hf]

theorem size_eq (h : w.Releases id w') : w'.size = w.size := by
  cases h with
  | release hentries => simp only [size, hentries, List.length_append, List.length_cons]

theorem awaits_release {e : InFlight} (h : e.awaits = some (.pubRec id)) :
    (Window.release e).awaits = some (.pubComp id) := by
  obtain ⟨hid, hqos, -⟩ := InFlight.awaits_eq_pubRec.1 h
  exact InFlight.awaits_eq_pubComp.2 ⟨hid, hqos, rfl⟩

end Releases

theorem releases_modify {w : Window} {id : UInt16} (h : w.has id .exactlyOnce .sent = true) :
    w.Releases id
      { w with entries := w.entries.modify (w.position id .exactlyOnce .sent) release } := by
  have hlt : w.position id .exactlyOnce .sent < w.entries.length :=
    List.findIdx_lt_length_of_exists (List.any_eq_true.1 h)
  have hfound := List.findIdx_getElem (w := hlt)
  simp only [Bool.and_eq_true, decide_eq_true_eq] at hfound
  have hawaits : w.entries[w.position id .exactlyOnce .sent].awaits = some (.pubRec id) :=
    InFlight.awaits_eq_pubRec.2 ⟨hfound.1.1, hfound.1.2, hfound.2⟩
  rw [List.modify_eq_take_cons_drop hlt]
  refine .release ?_ hawaits
  rw [List.getElem_cons_drop, List.take_append_drop]

theorem received?_eq_some {w w' : Window} {id : UInt16} (h : w.received? id = some w') :
    w' = w ∧ w.has id .exactlyOnce .released = true ∨ w.Releases id w' := by
  unfold received? at h
  split at h
  · next hhas =>
    cases h
    exact .inl ⟨rfl, hhas⟩
  · split at h
    · next hhas =>
      cases h
      exact .inr (releases_modify hhas)
    · cases h

theorem size_received {w w' : Window} {id : UInt16} (h : w.received? id = some w') :
    w'.size = w.size := by
  rcases received?_eq_some h with ⟨rfl, -⟩ | hreleases
  · rfl
  · exact hreleases.size_eq

theorem awaits_ne_of_received?_eq_none {w : Window} {id : UInt16} (h : w.received? id = none)
    {e : InFlight} (he : e ∈ w.entries) : e.awaits ≠ some (.pubRec id) := by
  intro hawaits
  obtain ⟨hid, hqos, hstage⟩ := InFlight.awaits_eq_pubRec.1 hawaits
  have hhas : w.has id .exactlyOnce .sent = true :=
    List.any_eq_true.2 ⟨e, he, by simp only [hid, hqos, hstage, decide_true, Bool.and_self]⟩
  rw [received?, if_pos hhas] at h
  split at h <;> cases h

/-! ### Identifiers -/

theorem toNat_successor (id : UInt16) : (successor id).toNat = id.toNat % 65535 + 1 := by
  have hlt : id.toNat < 65536 := id.toNat_lt
  unfold successor
  split
  · next h => subst h; rfl
  · next h =>
    have hne : id.toNat ≠ 65535 := fun heq => h (UInt16.toNat_inj.1 heq)
    rw [UInt16.toNat_add]
    change (id.toNat + 1) % 65536 = _
    omega

theorem successor_ne_zero (id : UInt16) : successor id ≠ 0 := by
  intro h
  have hnat := congrArg UInt16.toNat h
  rw [toNat_successor] at hnat
  cases hnat

/-- The candidate `k` places after `id`. -/
def candidate (id : UInt16) : Nat → UInt16
  | 0 => id
  | k + 1 => successor (candidate id k)

theorem candidate_successor (id : UInt16) (k : Nat) :
    candidate (successor id) k = candidate id (k + 1) := by
  induction k with
  | zero => rfl
  | succ k ih => rw [candidate, ih, ← candidate]

theorem toNat_candidate {id : UInt16} (hid : id ≠ 0) (k : Nat) :
    (candidate id k).toNat = (id.toNat - 1 + k) % 65535 + 1 := by
  have hpos : id.toNat ≠ 0 := fun h => hid (UInt16.toNat_inj.1 h)
  have hlt : id.toNat < 65536 := id.toNat_lt
  induction k with
  | zero =>
    change id.toNat = _
    omega
  | succ k ih =>
    rw [candidate, toNat_successor, ih]
    omega

theorem freshFrom_cases (taken : UInt16 → Bool) (n : Nat) (id : UInt16) :
    (∃ k, freshFrom taken n id = candidate id k) ∧
      (taken (freshFrom taken n id) = false ∨ ∀ k < n, taken (candidate id k) = true) := by
  induction n generalizing id with
  | zero => exact ⟨⟨0, rfl⟩, .inr fun k hk => absurd hk (Nat.not_lt_zero k)⟩
  | succ n ih =>
    unfold freshFrom
    split
    · next htaken =>
      obtain ⟨⟨k, hk⟩, hfree⟩ := ih (successor id)
      refine ⟨⟨k + 1, hk.trans (candidate_successor id k)⟩, hfree.imp_right fun hall => ?_⟩
      intro k hk
      cases k with
      | zero => exact htaken
      | succ k =>
        rw [← candidate_successor]
        exact hall k (by omega)
    · next htaken => exact ⟨⟨0, rfl⟩, .inl (by simpa using htaken)⟩

theorem nodup_candidates {id : UInt16} (hid : id ≠ 0) {n : Nat} (hn : n ≤ 65535) :
    ((List.range n).map (candidate id)).Nodup := by
  refine List.Nodup.map_on (fun j hj k hk heq => ?_) List.nodup_range
  have hnat := congrArg UInt16.toNat heq
  rw [toNat_candidate hid, toNat_candidate hid] at hnat
  rw [List.mem_range] at hj hk
  omega

/-- With fewer entries than identifiers, one of as many candidates as there are entries and one more
is free. -/
theorem exists_free {w : Window} {id : UInt16} (hid : id ≠ 0) (hsize : w.size < 65535) :
    ∃ k ≤ w.size, w.holds (candidate id k) = false := by
  by_contra hnone
  have hsub : (List.range (w.size + 1)).map (candidate id) ⊆ w.entries.map InFlight.packetId := by
    intro id' hmem
    obtain ⟨k, hk, rfl⟩ := List.mem_map.1 hmem
    have hk : k ≤ w.size := Nat.le_of_lt_succ (List.mem_range.1 hk)
    have htaken : w.holds (candidate id k) = true := by
      rw [← Bool.not_eq_false]
      exact fun hfree => hnone ⟨k, hk, hfree⟩
    obtain ⟨e, he, heq⟩ := List.any_eq_true.1 htaken
    exact List.mem_map.2 ⟨e, he, of_decide_eq_true heq⟩
  have hle := (List.subperm_of_subset (nodup_candidates hid hsize) hsub).length_le
  simp only [List.length_map, List.length_range] at hle
  exact absurd hle (Nat.not_succ_le_self _)

theorem holds_freshId {w : Window} (hid : w.nextId ≠ 0) (hsize : w.size < 65535) :
    w.holds w.freshId = false := by
  rcases (freshFrom_cases w.holds (w.entries.length + 1) w.nextId).2 with hfree | hall
  · exact hfree
  · obtain ⟨k, hk, hfree⟩ := exists_free hid hsize
    exact absurd (hfree.symm.trans (hall k (Nat.lt_succ_of_le hk))) Bool.false_ne_true

theorem freshId_ne_zero {w : Window} (hid : w.nextId ≠ 0) : w.freshId ≠ 0 := by
  obtain ⟨k, hk⟩ := (freshFrom_cases w.holds (w.entries.length + 1) w.nextId).1
  intro hzero
  have hnat := congrArg UInt16.toNat (hk.symm.trans hzero)
  rw [toNat_candidate hid] at hnat
  cases hnat

/-- What holds of the identifiers in every window that messages are put into up to a limit. -/
structure Numbered (w : Window) : Prop where
  distinct : (w.entries.map InFlight.packetId).Nodup
  nonzero : ∀ e ∈ w.entries, e.packetId ≠ 0
  next : w.nextId ≠ 0

namespace Numbered

variable {w w' : Window}

theorem empty : Numbered {} := ⟨List.nodup_nil, nofun, by decide⟩

/-- A message with an identifier that no other one has. -/
theorem concat (h : w.Numbered) {id : UInt16} (hfree : w.holds id = false) (hid : id ≠ 0)
    (p : Publication) :
    Numbered { entries := w.entries ++ [{ packetId := id, publication := p }]
               nextId := successor id } where
  distinct := by
    simp only [List.map_append, List.map_cons, List.map_nil]
    refine List.nodup_append.2 ⟨h.distinct, List.nodup_singleton _, ?_⟩
    rintro _ hold _ hnew rfl
    obtain ⟨e, he, heq⟩ := List.mem_map.1 hold
    rw [List.mem_singleton] at hnew
    refine Bool.false_ne_true (hfree.symm.trans (List.any_eq_true.2 ⟨e, he, ?_⟩))
    exact decide_eq_true (heq.trans hnew)
  nonzero := by
    intro e he
    rcases List.mem_append.1 he with hold | hnew
    · exact h.nonzero e hold
    · cases List.mem_singleton.1 hnew
      exact hid
  next := successor_ne_zero _

theorem sublist (h : w.Numbered) (hsub : w'.entries.Sublist w.entries)
    (hnext : w'.nextId = w.nextId) : w'.Numbered where
  distinct := (hsub.map _).nodup h.distinct
  nonzero e he := h.nonzero e (hsub.subset he)
  next := hnext ▸ h.next

theorem of_removes {p : InFlight → Bool} {window? : Option Window} (h : w.Numbered)
    (hremoves : w.Removes p window?) (hw' : window? = some w') : w'.Numbered := by
  rcases hremoves with ⟨hnone, -⟩ | hsome
  · cases hnone.symm.trans hw'
  · cases hsome.symm.trans hw'
    exact h.sublist List.eraseP_sublist rfl

theorem of_releases {id : UInt16} (h : w.Numbered) (hreleases : w.Releases id w') :
    w'.Numbered := by
  have hids : w'.entries.map InFlight.packetId = w.entries.map InFlight.packetId :=
    hreleases.map_eq fun _ => rfl
  constructor
  case distinct => exact hids ▸ h.distinct
  case nonzero =>
    intro e' he'
    obtain ⟨e, he, heq⟩ := List.mem_map.1 (hids ▸ List.mem_map_of_mem he')
    exact heq ▸ h.nonzero e he
  case next =>
    cases hreleases with
    | release => exact h.next

end Numbered

/-- What holds of every window that messages above QoS 0 are put into up to a limit. -/
structure Sound (w : Window) : Prop where
  distinct : (w.entries.map InFlight.packetId).Nodup
  nonzero : ∀ e ∈ w.entries, e.packetId ≠ 0
  awaiting : ∀ e ∈ w.entries, e.awaits.isSome = true
  next : w.nextId ≠ 0

namespace Sound

variable {w w' : Window}

theorem numbered (h : w.Sound) : w.Numbered := ⟨h.distinct, h.nonzero, h.next⟩

theorem of_numbered (h : w.Numbered) (hawaiting : ∀ e ∈ w.entries, e.awaits.isSome = true) :
    w.Sound := ⟨h.distinct, h.nonzero, hawaiting, h.next⟩

theorem empty : Sound {} := of_numbered .empty nofun

theorem insert (h : w.Sound) (hsize : w.size < 65535) {p : Publication}
    (hqos : p.qos ≠ .atMostOnce) : (w.insert p).1.Sound := by
  refine of_numbered (h.numbered.concat (holds_freshId h.next hsize) (freshId_ne_zero h.next) p) ?_
  intro e he
  rcases List.mem_append.1 he with hold | hnew
  · exact h.awaiting e hold
  · cases List.mem_singleton.1 hnew
    unfold InFlight.awaits
    cases hq : p.qos with
    | atMostOnce => exact absurd hq hqos
    | atLeastOnce | exactlyOnce => rfl

theorem of_removes {p : InFlight → Bool} {window? : Option Window} (h : w.Sound)
    (hremoves : w.Removes p window?) (hw' : window? = some w') : w'.Sound := by
  refine of_numbered (h.numbered.of_removes hremoves hw') fun e he => h.awaiting e ?_
  rcases hremoves with ⟨hnone, -⟩ | hsome
  · cases hnone.symm.trans hw'
  · cases hsome.symm.trans hw'
    exact List.mem_of_mem_eraseP he

/-- No two messages have one identifier. -/
theorem ne_of_split (h : w.Sound) {front back : List InFlight} {e : InFlight}
    (hentries : w.entries = front ++ e :: back) :
    ∀ e' ∈ front ++ back, e'.packetId ≠ e.packetId := by
  have hdistinct := h.distinct
  rw [hentries, List.map_append, List.map_cons, List.nodup_middle, List.nodup_cons,
    ← List.map_append] at hdistinct
  intro e' he' heq
  exact hdistinct.1 (heq ▸ List.mem_map_of_mem he')

theorem eq_of_packetId (h : w.Sound) {e e' : InFlight} (he : e ∈ w.entries) (he' : e' ∈ w.entries)
    (hid : e.packetId = e'.packetId) : e = e' :=
  List.inj_on_of_nodup_map h.distinct he he' hid

/-- Where only one identifier satisfies `p`, no entry that does is left. -/
theorem eq_false_of_mem_eraseP (h : w.Sound) {p : InFlight → Bool} {id : UInt16}
    (hp : ∀ e, p e = true → e.packetId = id) {e : InFlight} (he : e ∈ w.entries.eraseP p) :
    p e = false := by
  refine Bool.eq_false_iff.2 fun hpe => ?_
  have hmem : e ∈ w.entries := List.mem_of_mem_eraseP he
  obtain ⟨first, front, back, -, hfirst, hentries, herase⟩ := List.exists_of_eraseP hmem hpe
  have heq : first = e :=
    h.eq_of_packetId (hentries ▸ by simp) hmem ((hp first hfirst).trans (hp e hpe).symm)
  rw [herase] at he
  have hnodup := h.distinct
  rw [hentries, heq] at hnodup
  simp only [List.map_append, List.map_cons, List.nodup_append, List.nodup_cons] at hnodup
  rcases List.mem_append.1 he with hfront | hback
  · exact hnodup.2.2 _ (List.mem_map_of_mem hfront) _ List.mem_cons_self rfl
  · exact hnodup.2.1.1 (List.mem_map_of_mem hback)

theorem awaits_of_received {id : UInt16} (h : w.Sound) (hw' : w.received? id = some w')
    {e' : InFlight} (he' : e' ∈ w'.entries) :
    e'.awaits = some (.pubComp id) ∨
      ∃ e ∈ w.entries, e.awaits = e'.awaits ∧ e.awaits ≠ some (.pubRec id) := by
  rcases received?_eq_some hw' with ⟨rfl, hhas⟩ | hreleases
  · refine .inr ⟨e', he', rfl, fun hawaits => ?_⟩
    obtain ⟨e, he, hreleased⟩ := List.any_eq_true.1 hhas
    simp only [Bool.and_eq_true, decide_eq_true_eq] at hreleased
    obtain ⟨hid, -, hsent⟩ := InFlight.awaits_eq_pubRec.1 hawaits
    cases h.eq_of_packetId he he' (hreleased.1.1.trans hid.symm)
    rw [hsent] at hreleased
    cases hreleased.2
  · cases hreleases with
    | @release front back e hentries hawaits =>
      rcases List.mem_cons.1 (List.perm_middle.mem_iff.1 he') with rfl | hother
      · exact .inl (Releases.awaits_release hawaits)
      · have hmem : e' ∈ w.entries :=
          hentries ▸ List.perm_middle.mem_iff.2 (List.mem_cons_of_mem _ hother)
        refine .inr ⟨e', hmem, rfl, fun hawaits' => ?_⟩
        refine h.ne_of_split hentries e' hother ?_
        rw [(InFlight.awaits_eq_pubRec.1 hawaits).1, (InFlight.awaits_eq_pubRec.1 hawaits').1]

theorem received {id : UInt16} (h : w.Sound) (hw' : w.received? id = some w') : w'.Sound := by
  have hnumbered : w'.Numbered := by
    rcases received?_eq_some hw' with ⟨rfl, -⟩ | hreleases
    · exact h.numbered
    · exact h.numbered.of_releases hreleases
  refine of_numbered hnumbered fun e' he' => ?_
  rcases h.awaits_of_received hw' he' with hcomp | ⟨e, he, hsame, -⟩
  · rw [hcomp]
    rfl
  · rw [← hsame]
    exact h.awaiting e he

end Sound

end Window

end MqttBroker
