import Mathlib.Data.Finset.Card
import Mathlib.Data.Finset.Dedup
import Mathlib.Data.Finset.SDiff
import MqttBroker.Proofs.Session.Custody
/-!
How many messages above QoS 0 a connection has under way at once. The in-flight limit is the present
connection's and the window outlives connections: a new message is sent only while fewer than the
limit are in the window, but what the window holds when the connection comes is sent again whatever
the limit.
-/

namespace MqttBroker

namespace Window

def ids (w : Window) : Finset UInt16 := (w.entries.map (·.packetId)).toFinset

theorem mem_ids {w : Window} {id : UInt16} : id ∈ w.ids ↔ ∃ e ∈ w.entries, e.packetId = id := by
  rw [ids, List.mem_toFinset, List.mem_map]

theorem card_ids_le (w : Window) : w.ids.card ≤ w.size :=
  (List.toFinset_card_le _).trans_eq (List.length_map _)

theorem mem_ids_insert {w : Window} {p : Publication} {id : UInt16} :
    id ∈ (w.insert p).1.ids ↔ id ∈ w.ids ∨ id = w.freshId := by
  simp only [insert, ids, List.map_append, List.map_cons, List.map_nil, List.mem_toFinset,
    List.mem_append, List.mem_singleton]

theorem size_insert (w : Window) (p : Publication) : (w.insert p).1.size = w.size + 1 :=
  List.length_append

theorem ids_received {w w' : Window} {id : UInt16} (h : w.received? id = some w') :
    w'.ids = w.ids := by
  rcases received?_eq_some h with ⟨rfl, -⟩ | hreleases
  · rfl
  · exact congrArg List.toFinset (hreleases.map_eq fun _ => rfl)

theorem mem_ids_of_mem_redelivery {w : Window} {id : UInt16} {p : Publication}
    (h : .publish id p ∈ w.redelivery) : id ∈ w.ids := by
  obtain ⟨e, he, heq⟩ := List.mem_map.1 h
  split at heq
  · cases heq
    exact mem_ids.2 ⟨e, he, rfl⟩
  · cases heq

end Window

/-- The identifier under which the packet that calls for the answer was published. -/
def Answer.published? : Answer → Option UInt16
  | pubAck id | pubRec id => some id
  | pubComp _ => none

theorem Answer.packetId_of_published? {p : Publish} {id : UInt16} {level : Level} {frame : Bytes}
    (hframe : (Packet.publish p).encode level = .ok frame)
    (h : (toFrame frame).bind published? = some id) : p.packetId = some id := by
  rw [toFrame_encode hframe, Packet.answer?] at h
  split at h <;> cases h <;> assumption

theorem Redelivery.eq_publish {r : Redelivery} {id : UInt16} {level : Level} {frame : Bytes}
    (hframe : r.packet.encode level = .ok frame)
    (h : (Answer.toFrame frame).bind Answer.published? = some id) : ∃ p, r = .publish id p := by
  cases r with
  | publish id' p =>
    cases Answer.packetId_of_published? hframe h
    exact ⟨p, rfl⟩
  | release id' =>
    rw [Answer.toFrame_encode hframe] at h
    cases h

/-- A record of the flows on a session's present connection, by their identifiers. -/
structure Flows where
  /-- The PUBLISHes above QoS 0 that were begun. -/
  written : Finset UInt16 := ∅
  /-- What an acknowledgement has ended, unless a new message got the identifier. -/
  ended : Finset UInt16 := ∅
  /-- What was in flight when the connection came. -/
  resumed : Finset UInt16 := ∅

namespace Flows

open Tenancy (Move)

/-- The flows that the client has to take further. -/
def ongoing (a : Flows) : Finset UInt16 := a.written \ a.ended

/-- A PUBLISH that is no repetition begins a flow of its own. -/
def publish (a : Flows) (frame : Bytes) : Flows :=
  match (Answer.toFrame frame).bind Answer.published? with
  | some id =>
    { a with
      written := insert id a.written
      ended := if isFirstPublish frame then a.ended.erase id else a.ended }
  | none => a

def advance (a : Flows) (old new : Writer.Phase) : Flows :=
  ((old.begun new).map a.publish).getD a

def finish (a : Flows) (id : UInt16) (done : Bool) : Flows :=
  if done then { a with ended := insert id a.ended } else a

def note (t : Tenancy) (move : Move) (t' : Tenancy) (a : Flows) : Flows :=
  match move with
  | .arrive _ => { resumed := t.session.window.ids }
  | .ack id => a.finish id (t.session.ack id).2
  | .complete id => a.finish id (t.session.complete id).2
  | .abandon id => a.finish id (t.session.abandon id).2
  | .write .. => match t.writer?, t'.writer? with
    | some w, some w' => a.advance w.phase w'.phase
    | _, _ => a
  | _ => a

variable {a : Flows} {frame : Bytes} {id : UInt16}

theorem publish_of_none (h : (Answer.toFrame frame).bind Answer.published? = none) :
    a.publish frame = a := by
  rw [publish, h]

theorem ongoing_publish (h : (Answer.toFrame frame).bind Answer.published? = some id) :
    (a.publish frame).ongoing ⊆ insert id a.ongoing := by
  rw [publish, h]
  intro id' hid'
  obtain ⟨hwritten, hended⟩ := Finset.mem_sdiff.1 hid'
  rcases Finset.mem_insert.1 hwritten with rfl | hwritten
  · exact Finset.mem_insert_self ..
  · by_cases heq : id' = id
    · exact heq ▸ Finset.mem_insert_self ..
    · refine Finset.mem_insert_of_mem (Finset.mem_sdiff.2 ⟨hwritten, fun hmem => hended ?_⟩)
      dsimp only
      split
      · exact Finset.mem_erase.2 ⟨heq, hmem⟩
      · exact hmem

/-- A repetition does not begin a flow again that has come to its end. -/
theorem ongoing_publish_of_ended (h : (Answer.toFrame frame).bind Answer.published? = some id)
    (hrepeats : isFirstPublish frame = false) (hended : id ∈ a.ended) :
    (a.publish frame).ongoing ⊆ a.ongoing := by
  rw [publish, h, hrepeats]
  intro id' hid'
  obtain ⟨hwritten, hgoing⟩ := Finset.mem_sdiff.1 hid'
  rcases Finset.mem_insert.1 hwritten with rfl | hwritten
  · exact absurd hended hgoing
  · exact Finset.mem_sdiff.2 ⟨hwritten, hgoing⟩

theorem ended_publish_of_repeated (hrepeats : isFirstPublish frame = false) :
    (a.publish frame).ended = a.ended := by
  unfold publish
  split
  · rw [hrepeats]
    rfl
  · rfl

theorem advance_of_begun {old new : Writer.Phase} (h : old.begun new = some frame) :
    a.advance old new = a.publish frame := by
  rw [advance, h]
  rfl

/-- A step that begins no PUBLISH above QoS 0 is not noted. -/
theorem advance_of_other {old new : Writer.Phase}
    (h : ∀ frame, old.begun new = some frame →
      (Answer.toFrame frame).bind Answer.published? = none) : a.advance old new = a := by
  cases hbegun : old.begun new with
  | none =>
    rw [advance, hbegun]
    rfl
  | some frame => rw [advance_of_begun hbegun, publish_of_none (h frame hbegun)]

@[simp] theorem resumed_publish : (a.publish frame).resumed = a.resumed := by
  unfold publish
  split <;> rfl

end Flows

namespace Tenancy

variable {t t' : Tenancy} {move : Move} {x : Tenant} {a a' : Flows}

/-- What the record says of the session. -/
structure Controlled (t : Tenancy) (a : Flows) : Prop where
  ongoing : a.ongoing ⊆ t.session.window.ids
  resent : ∀ id p, .publish id p ∈ t.left → id ∈ t.session.window.ids ∨ id ∈ a.ended
  within : ∀ x, t.tenant = some x →
    t.session.window.size ≤ x.link.inFlightLimit ∨ t.session.window.ids ⊆ a.resumed

namespace Controlled

theorem fresh (clientId : String) (capacity : Nat) : Controlled (fresh clientId capacity) {} where
  ongoing := Finset.empty_subset _
  resent := nofun
  within := by rintro _ ⟨⟩

/-- A move that is not noted has to keep the window and the writer's work. -/
theorem of_same (h : Controlled t a) (hleft : t'.left = t.left)
    (hids : t'.session.window.ids = t.session.window.ids)
    (hsize : t'.session.window.size = t.session.window.size)
    (hlink : ∀ x', t'.tenant = some x' → ∃ x, t.tenant = some x ∧ x'.link = x.link) :
    Controlled t' a where
  ongoing := by
    rw [hids]
    exact h.ongoing
  resent id p hmem := by
    rw [hids]
    exact h.resent id p (hleft ▸ hmem)
  within x' hx' := by
    obtain ⟨x, hx, hsame⟩ := hlink x' hx'
    rw [hids, hsize, hsame]
    exact h.within x hx

theorem finish (h : Controlled t a) {p : InFlight → Bool} {id : UInt16} {window? : Option Window}
    (hremoves : t.session.window.Removes p window?) (hp : ∀ e, p e = true → e.packetId = id) :
    Controlled { t with session := (t.session.settle window?).1 }
      (a.finish id (t.session.settle window?).2) := by
  rcases hremoves with ⟨rfl, -⟩ | rfl
  · exact h
  -- Only the identifier that the record notes as ended leaves the window.
  have hkept : ∀ id' ∈ t.session.window.ids, id' = id ∨
      id' ∈ Window.ids { t.session.window with entries := t.session.window.entries.eraseP p } := by
    intro id' hid'
    obtain ⟨e, he, rfl⟩ := Window.mem_ids.1 hid'
    cases hpe : p e with
    | true => exact .inl (hp e hpe)
    | false =>
      refine .inr (Window.mem_ids.2 ⟨e, ?_, rfl⟩)
      exact (List.mem_eraseP_of_neg (by rw [hpe]; exact Bool.false_ne_true)).2 he
  have hfewer : Window.ids { t.session.window with entries := t.session.window.entries.eraseP p } ⊆
      t.session.window.ids := by
    intro id' hid'
    obtain ⟨e, he, rfl⟩ := Window.mem_ids.1 hid'
    exact Window.mem_ids.2 ⟨e, List.mem_of_mem_eraseP he, rfl⟩
  constructor
  case ongoing =>
    intro id' hid'
    obtain ⟨hwritten, hended⟩ := Finset.mem_sdiff.1 hid'
    have hgoing : id' ∈ a.ongoing :=
      Finset.mem_sdiff.2 ⟨hwritten, fun hmem => hended (Finset.mem_insert_of_mem hmem)⟩
    refine (hkept id' (h.ongoing hgoing)).resolve_left ?_
    rintro rfl
    exact hended (Finset.mem_insert_self ..)
  case resent =>
    intro id' q hmem
    rcases h.resent id' q hmem with hids | hended
    · rcases hkept id' hids with rfl | hids
      · exact .inr (Finset.mem_insert_self ..)
      · exact .inl hids
    · exact .inr (Finset.mem_insert_of_mem hended)
  case within =>
    intro x hx
    refine (h.within x hx).imp (fun hsize => ?_) fun hsub => hfewer.trans hsub
    exact (List.length_eraseP_le ..).trans hsize

theorem answer (h : Controlled t a) (hx : t.tenant = some x) (p : Packet) :
    Controlled (t.answer x p) a := by
  rcases t.answer_cases x p with ⟨reason, heq⟩ | ⟨bytes, -, heq⟩
  · rw [heq]
    refine h.of_same (left_congr (writer?_congr hx rfl rfl)) rfl rfl ?_
    rintro _ ⟨⟩
    exact ⟨x, hx, rfl⟩
  · rw [heq]
    refine h.of_same (left_congr (writer?_congr hx rfl rfl)) rfl rfl ?_
    rintro _ ⟨⟩
    exact ⟨x, hx, rfl⟩

theorem receive (h : Controlled t a) (hx : t.tenant = some x) (id : UInt16) :
    Controlled (t.receive x id) a := by
  rcases t.receive_cases x id with ⟨-, heq⟩ | ⟨window, hwindow, heq⟩
  · rw [heq]
    exact h
  · have hsame : Controlled { t with session := { t.session with window } } a :=
      h.of_same rfl (Window.ids_received hwindow) (Window.size_received hwindow)
        fun x' hx' => ⟨x', hx', rfl⟩
    rw [heq]
    exact hsame.answer hx _

/-! ### A step of the writer -/

variable {env : Writer.Surroundings} {w : Writer} {turn : Writer.Turn}

theorem of_window (h : Controlled t a) (hx : t.tenant = some x)
    (hwindow : turn.session.window = t.session.window)
    (hongoing : a'.ongoing ⊆ t.session.window.ids)
    (hleft : ∀ id p, .publish id p ∈ turn.writer.phase.left →
      id ∈ t.session.window.ids ∨ id ∈ a'.ended)
    (hresumed : a'.resumed = a.resumed) :
    Controlled { session := turn.session, tenant := some (x.after turn) } a' where
  ongoing := by
    rw [hwindow]
    exact hongoing
  resent id p hmem := by
    rw [left, writer?_of_tenant rfl, Tenant.after_writer] at hmem
    rw [hwindow]
    exact hleft id p hmem
  within := by
    rintro _ ⟨⟩
    rw [hwindow, Tenant.after_link, hresumed]
    exact h.within x hx

/-- A step that begins no PUBLISH above QoS 0 and leaves the window alone. -/
theorem of_other (h : Controlled t a) (hx : t.tenant = some x)
    (hwindow : turn.session.window = t.session.window)
    (hleft : turn.writer.phase.left ⊆ t.left)
    (hother : ∀ frame, w.phase.begun turn.writer.phase = some frame →
      (Answer.toFrame frame).bind Answer.published? = none) :
    Controlled { session := turn.session, tenant := some (x.after turn) }
      (a.advance w.phase turn.writer.phase) := by
  rw [Flows.advance_of_other hother]
  exact h.of_window hx hwindow h.ongoing (fun id p hmem => h.resent id p (hleft hmem)) rfl

/-- The next packet to be sent again is begun. Its flow may have come to its end meanwhile. -/
theorem resend (h : Controlled t a) (hregular : t.Regular) (hx : t.tenant = some x)
    {r : Redelivery} {left : List Redelivery} (hleft : t.left = r :: left)
    (hsession : turn.session = t.session) (hstarts : w.Starts r.packet (some left) turn) :
    Controlled { session := turn.session, tenant := some (x.after turn) }
      (a.advance w.phase turn.writer.phase) := by
  have hwindow := congrArg Session.window hsession
  have hsub : turn.writer.phase.left ⊆ t.left := by
    rw [hleft]
    exact List.Subset.trans hstarts.left_subset (List.subset_cons_self _ _)
  cases hbegun : w.phase.begun turn.writer.phase with
  | none => exact h.of_other hx hwindow hsub (by rw [hbegun]; exact nofun)
  | some frame =>
    have hframe := hstarts.encode_of_begun hbegun
    cases hid : (Answer.toFrame frame).bind Answer.published? with
    | none =>
      refine h.of_other hx hwindow hsub ?_
      rw [hbegun]
      rintro _ ⟨⟩
      exact hid
    | some id =>
      obtain ⟨p, rfl⟩ := Redelivery.eq_publish hframe hid
      have hmem : .publish id p ∈ t.left := hleft ▸ List.mem_cons_self ..
      have hrepeats : isFirstPublish frame = false := by
        refine Bool.eq_false_iff.2 fun hfirst => ?_
        obtain ⟨m, hm, hdup, -⟩ := (isFirstPublish_encode hframe).1 hfirst
        cases hm
        exact Bool.false_ne_true (hdup.symm.trans (hregular.repeats id p hmem))
      rw [Flows.advance_of_begun hbegun]
      refine h.of_window hx hwindow ?_ ?_ Flows.resumed_publish
      · rcases h.resent id p hmem with hids | hended
        · exact (Flows.ongoing_publish hid).trans (Finset.insert_subset hids h.ongoing)
        · exact (Flows.ongoing_publish_of_ended hid hrepeats hended).trans h.ongoing
      · rw [Flows.ended_publish_of_repeated hrepeats]
        exact fun id' p' hmem' => h.resent id' p' (hsub hmem')

/-- A new message is begun, under an identifier that the window takes in while there is room. -/
theorem reserve (h : Controlled t a) {p : Publication} {s' : Session}
    {id : UInt16} (hreserve : t.session.reserve? x.link.inFlightLimit p = some (s', id))
    (hsession : turn.session = s')
    (hstarts : w.Starts (.publish (p.toPublish (some id))) none turn) :
    Controlled { session := turn.session, tenant := some (x.after turn) }
      (a.advance w.phase turn.writer.phase) := by
  obtain ⟨hroom, rfl, rfl⟩ := Session.reserve?_eq_some hreserve
  have hids : insert t.session.window.freshId t.session.window.ids ⊆
      (t.session.window.insert p).1.ids := by
    intro id hid
    exact Window.mem_ids_insert.2 ((Finset.mem_insert.1 hid).symm)
  have hongoing : (a.advance w.phase turn.writer.phase).ongoing ⊆
      insert t.session.window.freshId t.session.window.ids := by
    have hold := h.ongoing.trans (Finset.subset_insert t.session.window.freshId _)
    cases hbegun : w.phase.begun turn.writer.phase with
    | none =>
      rw [Flows.advance_of_other (by rw [hbegun]; exact nofun)]
      exact hold
    | some frame =>
      rw [Flows.advance_of_begun hbegun]
      cases hid : (Answer.toFrame frame).bind Answer.published? with
      | none =>
        rw [Flows.publish_of_none hid]
        exact hold
      | some id =>
        cases Answer.packetId_of_published? (hstarts.encode_of_begun hbegun) hid
        exact (Flows.ongoing_publish hid).trans (Finset.insert_subset_insert _ h.ongoing)
  constructor
  case ongoing =>
    rw [hsession]
    exact hongoing.trans hids
  case resent =>
    intro id p hmem
    rw [left, writer?_of_tenant rfl, Tenant.after_writer] at hmem
    exact absurd (hstarts.left_subset hmem) List.not_mem_nil
  case within =>
    rintro _ ⟨⟩
    rw [hsession, Tenant.after_link]
    exact .inl ((Window.size_insert ..).trans_le hroom)

theorem write (h : Controlled t a) (hregular : t.Regular) (hx : t.tenant = some x)
    (hw : x.writer = some w) (htraffic : Writer.Traffic env t.session w turn) :
    Controlled { session := turn.session, tenant := some (x.after turn) }
      (a.advance w.phase turn.writer.phase) := by
  have hleft : t.left = w.phase.left := by
    rw [left, writer?_of_tenant hx, hw]
    rfl
  cases htraffic with
  | idle _ hwindow hphase =>
    refine h.of_other hx hwindow ?_ (by rw [hphase.begun]; rintro _ ⟨⟩)
    rw [hphase.left, hleft]
    exact List.Subset.refl _
  | lookUp hphase hsession hnext =>
    rw [Flows.advance_of_other (by rw [hphase, hnext]; rintro _ ⟨⟩)]
    refine h.of_window hx (by rw [hsession]) h.ongoing ?_ rfl
    rw [hnext]
    exact fun id p hmem => .inl (Window.mem_ids_of_mem_redelivery hmem)
  | stop hsession _ _ hnext =>
    refine h.of_other hx (by rw [hsession]) ?_ ?_
    · rw [Writer.Phase.left_of_isEnding hnext]
      exact List.nil_subset _
    · rw [Writer.Phase.begun_of_isEnding hnext]
      rintro _ ⟨⟩
  | resend hphase hsession hstarts =>
    exact h.resend hregular hx (by rw [hleft, hphase]; rfl) hsession hstarts
  | @control bytes _ hphase hitems hsession hnext =>
    refine h.of_other hx (by rw [hsession]; rfl) (by rw [hnext]; exact List.nil_subset _) ?_
    rw [hnext]
    intro frame hframe
    obtain rfl := Writer.Phase.eq_of_begun hframe
    have hcontrol := hregular.controls frame (by rw [hitems]; exact List.mem_cons_self ..)
    cases hanswer : Answer.toFrame frame with
    | none => rfl
    | some ans =>
      obtain ⟨id, rfl⟩ := hcontrol.eq_pubComp hanswer
      rfl
  | transient _ _ hsession hqos hstarts =>
    refine h.of_other hx (by rw [hsession]; rfl)
      (List.Subset.trans hstarts.left_subset (List.nil_subset _)) fun frame hframe => ?_
    refine Option.eq_none_iff_forall_ne_some.2 fun id hid => ?_
    cases Answer.packetId_of_published? (hstarts.encode_of_begun hframe) hid
  | drop hphase _ hsession _ hnext =>
    refine h.of_other hx (by rw [hsession]; rfl) ?_ ?_
    · rcases hnext with hnext | hnext <;> rw [hnext] <;> exact List.nil_subset _
    · rcases hnext with hnext | hnext <;> rw [hphase, hnext] <;> rintro _ ⟨⟩
  | hold hphase hitems hsession hlimit hqos hnext =>
    refine h.of_other hx (by rw [hsession]; rfl) (by rw [hnext]; exact List.nil_subset _) ?_
    rw [hphase, hnext]
    rintro _ ⟨⟩
  | giveBack _ _ hsession hnext | forsake _ _ _ hsession hnext =>
    refine h.of_other hx (by rw [hsession]) ?_ ?_
    · rw [Writer.Phase.left_of_isEnding hnext]
      exact List.nil_subset _
    · rw [Writer.Phase.begun_of_isEnding hnext]
      rintro _ ⟨⟩
  | reserve _ hreserve hsession hstarts =>
    rw [hregular.linked x w hx hw] at hreserve
    exact h.reserve hreserve hsession hstarts

/-! ### Every move -/

theorem step (h : Controlled t a) (hregular : t.Regular) (hstep : t.step move = some t') :
    Controlled t' (Flows.note t move t' a) := by
  cases goes_of_step hstep with
  | arrive =>
    refine ⟨?_, fun _ _ hmem => absurd hmem List.not_mem_nil, fun _ _ => .inr ?_⟩
    · exact Finset.sdiff_subset.trans (Finset.empty_subset _)
    · exact Finset.Subset.refl _
  | @activate threshold x hx hwriter =>
    refine h.of_same ?_ rfl rfl ?_
    · rw [left, left, writer?_of_tenant hx, hwriter]
      rfl
    · rintro _ ⟨⟩
      exact ⟨x, hx, rfl⟩
  | @close reason =>
    refine h.of_same (left_congr (t.writer?_close reason)) rfl rfl fun x' hx' => ?_
    obtain ⟨x, hx, rfl⟩ := Option.map_eq_some_iff.1 hx'
    exact ⟨x, hx, rfl⟩
  | @offer m =>
    have hwindow : (t.session.offer m).1.window = t.session.window := by
      rcases t.session.offer_cases m with heq | heq | ⟨qos, heq⟩ <;> rw [heq]
      exact Session.append_window ..
    exact h.of_same rfl (congrArg Window.ids hwindow) (congrArg Window.size hwindow)
      fun x hx => ⟨x, hx, rfl⟩
  | answer hx => exact h.answer hx _
  | ack =>
    exact h.finish (t.session.window.removes_ack? _) fun e he =>
      (InFlight.awaits_eq_pubAck.1 (of_decide_eq_true he)).1
  | receive hx => exact h.receive hx _
  | abandon => exact h.finish (t.session.window.removes_abandon? _) fun e => of_decide_eq_true
  | complete =>
    exact h.finish (t.session.window.removes_complete? _) fun e he =>
      (InFlight.awaits_eq_pubComp.1 (of_decide_eq_true he)).1
  | adjust => exact h.of_same rfl rfl rfl fun x hx => ⟨x, hx, rfl⟩
  | @write _ _ _ x w turn hx hwriter hacts =>
    have hw : t.writer? = some w := (writer?_of_tenant hx).trans hwriter
    have hw' : writer? { session := turn.session, tenant := some (x.after turn) } =
        some turn.writer := x.after_writer turn
    have hnote := h.write hregular hx hwriter (Writer.traffic_of_acts hacts)
    simp only [Flows.note, hw, hw']
    exact hnote
  | leave =>
    refine ⟨h.ongoing, fun _ _ hmem => absurd hmem List.not_mem_nil, ?_⟩
    rintro _ ⟨⟩

end Controlled

theorem controlled_of_run {clientId : String} {capacity : Nat} {moves : List Move}
    (h : run Flows.note moves (fresh clientId capacity, {}) = some (t, a)) : Controlled t a :=
  (run_induction (I := fun x => x.1.Regular ∧ Controlled x.1 x.2)
    (fun _ _ _ _ hstep ⟨hregular, hcontrolled⟩ =>
      ⟨hregular.step hstep, hcontrolled.step hregular hstep⟩) h
    ⟨.fresh clientId capacity, .fresh clientId capacity⟩).2

/-- The flows that a connection has under way are in the session's window. They are no more than the
connection's in-flight limit unless all of them were in flight before the connection came. -/
theorem ongoing_within_limit {clientId : String} {capacity : Nat} {moves : List Move}
    (h : run Flows.note moves (fresh clientId capacity, {}) = some (t, a))
    (hx : t.tenant = some x) :
    a.ongoing ⊆ t.session.window.ids ∧
      (a.ongoing.card ≤ x.link.inFlightLimit ∨ a.ongoing ⊆ a.resumed) := by
  have hcontrolled := controlled_of_run h
  refine ⟨hcontrolled.ongoing, (hcontrolled.within x hx).imp ?_ hcontrolled.ongoing.trans⟩
  intro hsize
  exact (Finset.card_le_card hcontrolled.ongoing).trans
    ((Window.card_ids_le _).trans hsize)

/-- A 5.0 client that keeps its session and says how many messages it takes at a time. -/
def cappedLink (receiveMaximum : UInt16) : Link :=
  Link.negotiate {} { level := .v5, clientId := "a" }
    { protocolName := [77, 81, 84, 84]
      protocolLevel := 5
      cleanSession := false
      keepAlive := 0
      properties := [⟨.sessionExpiryInterval, (60 : UInt32)⟩, ⟨.receiveMaximum, receiveMaximum⟩]
      clientId := [97]
      will := none
      username := none
      password := none }

/-- Two messages go to a client that takes two at a time. It answers neither, and comes back as one
that takes one at a time. -/
def narrowedMoves : List Move :=
  [subscribing .atLeastOnce, .arrive (cappedLink 2), .activate 16384,
    .offer (letter 49 .atLeastOnce), .offer (letter 50 .atLeastOnce)] ++ writing 13 ++
    [.close .connectionLost] ++ writing 2 ++
    [.leave true, .arrive (cappedLink 1), .activate 16384] ++ writing 9

theorem run_narrowedMoves :
    ∃ t a x, run Flows.note narrowedMoves (fresh "a" 1000, {}) = some (t, a) ∧
      t.tenant = some x ∧ x.link.inFlightLimit = 1 ∧ a.ongoing.card = 2 := by
  have hrun : (run Flows.note narrowedMoves (fresh "a" 1000, {})).map
      (fun y => (y.1.tenant.map (·.link.inFlightLimit), y.2.ongoing.card)) =
        some (some 1, 2) := by
    decide +kernel
  obtain ⟨⟨t, a⟩, hrun, heq⟩ := Option.map_eq_some_iff.1 hrun
  obtain ⟨hlimit, hcard⟩ := Prod.mk.inj heq
  obtain ⟨x, hx, hlimit⟩ := Option.map_eq_some_iff.1 hlimit
  exact ⟨t, a, x, hrun, hx, hlimit, hcard⟩

theorem ongoing_within_limit_narrowed :
    ∃ t a x, run Flows.note narrowedMoves (fresh "a" 1000, {}) = some (t, a) ∧
      t.tenant = some x ∧ x.link.inFlightLimit = 1 ∧ a.ongoing.card = 2 ∧
      a.ongoing ⊆ t.session.window.ids ∧
      (a.ongoing.card ≤ x.link.inFlightLimit ∨ a.ongoing ⊆ a.resumed) := by
  obtain ⟨t, a, x, hrun, hx, hlimit, hcard⟩ := run_narrowedMoves
  exact ⟨t, a, x, hrun, hx, hlimit, hcard, ongoing_within_limit hrun hx⟩

/-- What is sent again can be more than the client says it takes. -/
theorem not_ongoing_le_limit :
    ¬ ∀ (clientId : String) (capacity : Nat) (moves : List Move) (t : Tenancy) (a : Flows)
        (x : Tenant),
      run Flows.note moves (fresh clientId capacity, {}) = some (t, a) → t.tenant = some x →
      a.ongoing.card ≤ x.link.inFlightLimit := by
  intro hclaim
  obtain ⟨t, a, x, hrun, hx, hlimit, hcard⟩ := run_narrowedMoves
  have hle := hclaim "a" 1000 narrowedMoves t a x hrun hx
  rw [hlimit, hcard] at hle
  exact absurd hle (by decide)

end Tenancy

end MqttBroker
