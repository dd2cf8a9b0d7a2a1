import Mathlib.Data.List.Forall2
import MqttBroker.Proofs.Writer.Emission
/-!
The order in which a writer writes: what the window held when it started, the oldest first, and then
the items of the outbox as they were queued.
-/

namespace MqttBroker

/-- What is to be sent again for an entry of the window. -/
def InFlight.again (e : InFlight) : Redelivery :=
  match e.stage with
  | .sent => .publish e.packetId { e.publication with dup := true }
  | .released => .release e.packetId

/-- Something a writer writes a packet for. -/
inductive Due where
  | again (e : InFlight)
  | item (item : Outgoing)

/-- An entry of the window is written under its own identifier, as a PUBLISH that is marked as a
repetition or as a PUBREL. A message off the outbox has an identifier only above QoS 0. -/
def Due.IsWrittenAs (level : Level) : Due → Bytes → Prop
  | again e, frame => e.again.packet.encode level = .ok frame
  | item (.control bytes), frame => frame = bytes
  | item (.publish p), frame => ∃ id, (id = none ↔ p.qos = .atMostOnce) ∧
      Packet.encode (.publish (p.toPublish id)) level = .ok frame

/-- A record of what a connection's writer had to write and has written. -/
structure Course extends Transcript where
  /-- The window when the writer looked into it. -/
  resumed : List InFlight := []
  /-- The outbox the connection found, and all that was added to it since. -/
  queued : List Outgoing := []
deriving DecidableEq

/-- Notes a step of the writer. -/
def Course.follow (a : Course) (w : Writer) (s : Session) (turn : Writer.Turn) : Course where
  toTranscript := a.toTranscript.follow w turn
  resumed := if w.phase = .starting then s.window.entries else a.resumed
  queued := a.queued

namespace Writer

/-- Does the client take packets as large as the item's? -/
def takes (w : Writer) : Outgoing → Bool
  | .control _ => true
  | .publish p => !w.exceedsClientLimit p

/-- How far a writer has come, with `items` in the outbox. Of what the window held, `resent` is
written and `later` is not. Of what was queued, `taken` is off the queue, and `written` is written
of that. -/
structure IsInOrder (w : Writer) (items : List Outgoing) (a : Course)
    (resent later : List InFlight) (taken written : List Outgoing) : Prop where
  resumed : a.resumed = resent ++ later
  queued : a.queued = taken ++ (w.phase.hand.map .publish ++ items)
  frames : List.Forall₂ (Due.IsWrittenAs w.link.level)
    (resent.map .again ++ written.map .item) a.frames
  /-- The window comes before the queue. -/
  waits : taken ≠ [] → later = []
  /-- Nothing is passed over but what the client does not take. -/
  kept : written <+: taken.filter w.takes
  /-- The last item need not have been written if that is how the writer came to its end. -/
  complete : w.phase.isEnding = false → written = taken.filter w.takes
  left : w.phase.isEnding = false → w.phase.left = later.map InFlight.again

/-- The writer is done with the window, and it is not in the middle of a packet. -/
structure Phase.IsAtQueue (phase : Phase) : Prop where
  going : phase.isEnding = false
  between : phase.isWriting = false
  left : phase.left = []
  started : phase ≠ .starting

theorem Phase.isAtQueue_taking (parked : Bool) : (taking parked).IsAtQueue :=
  ⟨rfl, rfl, rfl, nofun⟩

theorem Phase.isAtQueue_reserving (p : Publication) (parked : Bool) :
    (reserving p parked).IsAtQueue :=
  ⟨rfl, rfl, rfl, nofun⟩

/-- With what is needed to go on. -/
structure Sequence (w : Writer) (items : List Outgoing) (a : Course)
    (resent later : List InFlight) (taken written : List Outgoing) : Prop
    extends w.IsInOrder items a resent later taken written where
  starting : w.phase = .starting → resent = [] ∧ taken = []
  fits : ∀ p ∈ w.phase.hand, w.takes (.publish p) = true

variable {env : Surroundings} {s : Session} {w : Writer} {turn : Turn} {a : Course}
  {resent later : List InFlight} {items taken written : List Outgoing}

theorem takes_congr {w' : Writer} (hlink : w'.link = w.link) : w'.takes = w.takes := by
  funext item
  cases item with
  | control => rfl
  | publish p => simp only [takes, exceedsClientLimit, hlink]

theorem IsInOrder.sequence (h : w.IsInOrder items a resent later taken written)
    (hstarting : w.phase ≠ .starting) (hhand : w.phase.hand = []) :
    w.Sequence items a resent later taken written where
  __ := h
  starting := fun hphase => absurd hphase hstarting
  fits := by
    rw [hhand]
    exact nofun

namespace Sequence

theorem start (link : Link) (threshold : Nat) (hframes : a.frames = []) (hresumed : a.resumed = [])
    (hqueued : a.queued = items) :
    (start link threshold).Sequence items a [] [] [] [] where
  resumed := hresumed
  queued := hqueued
  frames := hframes ▸ .nil
  waits := fun _ => rfl
  kept := List.prefix_refl _
  complete := fun _ => rfl
  left := fun _ => rfl
  starting := fun _ => ⟨rfl, rfl⟩
  fits := nofun

/-- What is added to the outbox is added behind everything else. -/
theorem append (h : w.Sequence items a resent later taken written) (more : List Outgoing) :
    w.Sequence (items ++ more) { a with queued := a.queued ++ more } resent later taken written where
  __ := h
  queued := by simp only [h.queued, List.append_assoc]

theorem later_eq_nil (h : w.Sequence items a resent later taken written)
    (hqueue : w.phase.IsAtQueue) : later = [] := by
  have hleft := h.left hqueue.going
  rw [hqueue.left] at hleft
  exact List.map_eq_nil_iff.1 hleft.symm

/-- A step that starts no packet. What leaves the writer's hands is not for the client, unless the
writer comes to its end. -/
theorem of_still (h : w.Sequence s.outbox.items a resent later taken written)
    (hlink : turn.writer.link = w.link) (hbegun : w.phase.begun turn.writer.phase = none)
    (hstarting : w.phase ≠ .starting) (hstarting' : turn.writer.phase ≠ .starting)
    (gone : List Outgoing)
    (hitems : w.phase.hand.map .publish ++ s.outbox.items =
      gone ++ (turn.writer.phase.hand.map .publish ++ turn.session.outbox.items))
    (hwaits : gone ≠ [] → later = [])
    (hgoing : turn.writer.phase.isEnding = false → w.phase.isEnding = false ∧
      turn.writer.phase.left = w.phase.left ∧ gone.filter w.takes = [])
    (hfits : ∀ p ∈ turn.writer.phase.hand, w.takes (.publish p) = true) :
    turn.writer.Sequence turn.session.outbox.items (a.follow w s turn) resent later (taken ++ gone)
      written := by
  have htakes := takes_congr hlink
  constructor
  case starting => exact fun hnext => absurd hnext hstarting'
  case fits => exact htakes ▸ hfits
  constructor
  case resumed =>
    rw [Course.follow, if_neg hstarting]
    exact h.resumed
  case queued =>
    rw [List.append_assoc, ← hitems]
    exact h.queued
  case frames =>
    simp only [Course.follow, Transcript.follow, hbegun, hlink, Option.toList_none, List.append_nil]
    exact h.frames
  case waits =>
    intro hne
    by_cases hnone : taken = []
    · exact hwaits fun hgone => hne (by rw [hnone, hgone]; rfl)
    · exact h.waits hnone
  case kept =>
    rw [htakes, List.filter_append]
    exact h.kept.trans (List.prefix_append _ _)
  case complete =>
    intro hnext
    obtain ⟨hgo, -, hnone⟩ := hgoing hnext
    rw [htakes, List.filter_append, hnone, List.append_nil]
    exact h.complete hgo
  case left =>
    intro hnext
    obtain ⟨hgo, hleft, -⟩ := hgoing hnext
    rw [hleft]
    exact h.left hgo

/-- The writer comes to its end. -/
theorem of_end (h : w.Sequence s.outbox.items a resent later taken written)
    (hlink : turn.writer.link = w.link) (hstarting : w.phase ≠ .starting)
    (hend : turn.writer.phase.isEnding = true) (gone : List Outgoing)
    (hitems : w.phase.hand.map .publish ++ s.outbox.items = gone ++ turn.session.outbox.items)
    (hwaits : gone ≠ [] → later = []) :
    ∃ resent later taken written,
      turn.writer.Sequence turn.session.outbox.items (a.follow w s turn) resent later taken
        written := by
  have hhand := Phase.hand_of_isEnding hend
  refine ⟨_, _, _, _, h.of_still hlink (Phase.begun_of_isEnding hend) hstarting ?_ gone ?_ hwaits
    ?_ ?_⟩
  · intro hnext
    rw [hnext] at hend
    cases hend
  · rw [hhand]
    exact hitems
  · intro hgoing
    exact absurd (hend.symm.trans hgoing) nofun
  · rw [hhand]
    exact nofun

theorem frames_of_writing (h : w.Sequence s.outbox.items a resent later taken written)
    (hlink : turn.writer.link = w.link) (hbetween : w.phase.isWriting = false) {frame : Bytes}
    {size : Nat} {left : Option (List Redelivery)}
    (hnext : turn.writer.phase = .writing frame size left) {d : Due}
    (hd : d.IsWrittenAs w.link.level frame) :
    List.Forall₂ (Due.IsWrittenAs turn.writer.link.level)
      (resent.map .again ++ written.map .item ++ [d]) (a.follow w s turn).frames := by
  rw [hlink]
  simp only [Course.follow, Transcript.follow, hnext, Phase.begun_writing hbetween]
  exact List.rel_append h.frames (.cons hd .nil)

theorem of_lookUp (h : w.Sequence s.outbox.items a resent later taken written)
    (hphase : w.phase = .starting) (hsession : turn.session = s)
    (hlink : turn.writer.link = w.link)
    (hnext : turn.writer.phase = .redelivering s.window.redelivery) :
    turn.writer.Sequence turn.session.outbox.items (a.follow w s turn) [] s.window.entries [] [] := by
  obtain ⟨rfl, rfl⟩ := h.starting hphase
  obtain rfl := List.prefix_nil.1 h.kept
  refine IsInOrder.sequence ?_ (by rw [hnext]; exact nofun) (by rw [hnext]; rfl)
  constructor
  case resumed =>
    rw [Course.follow, if_pos hphase]
    rfl
  case queued =>
    rw [hsession, hnext]
    have hqueued := h.queued
    rw [hphase] at hqueued
    exact hqueued
  case frames =>
    have hbegun : w.phase.begun turn.writer.phase = none := by rw [hphase, hnext]; rfl
    simp only [Course.follow, Transcript.follow, hbegun, hlink, Option.toList_none, List.append_nil]
    exact h.frames
  case waits => exact fun hne => absurd rfl hne
  case kept => exact List.prefix_refl _
  case complete => exact fun _ => rfl
  case left =>
    rw [hnext]
    exact fun _ => rfl

/-- The next entry of the window is written, or the writer fails at it. -/
theorem of_resend (h : w.Sequence s.outbox.items a resent later taken written)
    {r : Redelivery} {left : List Redelivery} (hphase : w.phase = .redelivering (r :: left))
    (hsession : turn.session = s) (hlink : turn.writer.link = w.link)
    (hstarts : w.Starts r.packet (some left) turn) :
    ∃ resent later taken written,
      turn.writer.Sequence turn.session.outbox.items (a.follow w s turn) resent later taken
        written := by
  have hstarting : w.phase ≠ .starting := by
    rw [hphase]
    exact nofun
  have hhand : w.phase.hand = [] := by rw [hphase]; rfl
  have hleft := h.left (by rw [hphase]; rfl)
  rw [hphase] at hleft
  obtain ⟨e, later', rfl, rfl, hleft'⟩ := List.map_eq_cons_iff.1 hleft.symm
  rcases hstarts with ⟨frame, hframe, hnext⟩ | ⟨hnext, -⟩
  · -- Nothing has been taken off the queue so far, so the entry comes behind all that is written.
    have hnone : taken = [] := by
      by_contra hne
      exact List.cons_ne_nil _ _ (h.waits hne)
    subst hnone
    obtain rfl := List.prefix_nil.1 h.kept
    refine ⟨resent ++ [e], later', [], [], ?_⟩
    refine IsInOrder.sequence ?_ (by rw [hnext]; exact nofun) (by rw [hnext]; rfl)
    constructor
    case resumed =>
      rw [Course.follow, if_neg hstarting, List.append_assoc]
      exact h.resumed
    case queued =>
      rw [hnext, hsession]
      have hqueued := h.queued
      rw [hhand] at hqueued
      exact hqueued
    case frames =>
      have hframes := h.frames_of_writing hlink (by rw [hphase]; rfl) hnext (d := .again e) hframe
      simpa using hframes
    case waits => exact fun hne => absurd rfl hne
    case kept => exact List.prefix_refl _
    case complete => exact fun _ => rfl
    case left =>
      rw [hnext]
      exact fun _ => hleft'.symm
  · refine h.of_end hlink hstarting (by rw [hnext]; rfl) [] ?_ fun hne => absurd rfl hne
    rw [hsession, hhand]
    rfl

/-- An item leaves the writer's hands: it is written, or the writer fails at it. -/
theorem of_taken (h : w.Sequence s.outbox.items a resent later taken written)
    (hqueue : w.phase.IsAtQueue) (hlink : turn.writer.link = w.link) (item : Outgoing)
    (hitems : w.phase.hand.map .publish ++ s.outbox.items = item :: turn.session.outbox.items)
    (htakes : w.takes item = true)
    (hnext : (∃ frame size, turn.writer.phase = .writing frame size none ∧
        (Due.item item).IsWrittenAs w.link.level frame) ∨ turn.writer.phase = .stopped) :
    ∃ resent later taken written,
      turn.writer.Sequence turn.session.outbox.items (a.follow w s turn) resent later taken
        written := by
  have hlater := h.later_eq_nil hqueue
  rcases hnext with ⟨frame, size, hnext, hitem⟩ | hnext
  · refine ⟨resent, later, taken ++ [item], written ++ [item], ?_⟩
    have hfilter : written ++ [item] = (taken ++ [item]).filter turn.writer.takes := by
      rw [takes_congr hlink, List.filter_append, List.filter_cons_of_pos htakes,
        h.complete hqueue.going]
      rfl
    refine IsInOrder.sequence ?_ (by rw [hnext]; exact nofun) (by rw [hnext]; rfl)
    constructor
    case resumed =>
      rw [Course.follow, if_neg hqueue.started]
      exact h.resumed
    case queued =>
      rw [hnext, List.append_assoc]
      exact h.queued.trans (congrArg (taken ++ ·) hitems)
    case frames =>
      have hframes := h.frames_of_writing hlink hqueue.between hnext hitem
      rwa [List.map_append, ← List.append_assoc]
    case waits => exact fun _ => hlater
    case kept => exact hfilter ▸ List.prefix_refl _
    case complete => exact fun _ => hfilter
    case left =>
      rw [hnext, hlater]
      exact fun _ => rfl
  · exact h.of_end hlink hqueue.started (by rw [hnext]; rfl) [item] hitems fun _ => hlater

end Sequence

/-- What a writer starts on is the packet, or it comes to its end. -/
theorem Starts.cases {p : Packet} (h : w.Starts p none turn) (item : Outgoing)
    (hp : ∀ frame, p.encode w.link.level = .ok frame →
      (Due.item item).IsWrittenAs w.link.level frame) :
    (∃ frame size, turn.writer.phase = .writing frame size none ∧
        (Due.item item).IsWrittenAs w.link.level frame) ∨ turn.writer.phase = .stopped := by
  rcases h with ⟨frame, hframe, hnext⟩ | ⟨hnext, -⟩
  · exact .inl ⟨frame, _, hnext, hp frame hframe⟩
  · exact .inr hnext

theorem Acts.phase_of_starting (h : Acts env s w turn) (hphase : w.phase = .starting) :
    turn.writer.phase = .redelivering s.window.redelivery := by
  cases h with
  | lookUp => rfl
  | lose hbusy | interrupt hbusy =>
    rw [hphase] at hbusy
    cases hbusy
  | _ hphase' => cases hphase.symm.trans hphase'

/-- There is no way back from the end. -/
theorem Acts.going (h : Acts env s w turn) (hnext : turn.writer.phase.isEnding = false) :
    w.phase.isEnding = false := by
  cases h with
  | lose | interrupt | finish | stop => cases hnext
  | _ hphase =>
    rw [hphase]
    rfl

/-- Every step of a writer keeps to the order. -/
theorem sequence_of_acts (h : w.Sequence s.outbox.items a resent later taken written)
    (hheld : ∀ p ∈ w.phase.hand, p.qos ≠ .atMostOnce) (hacts : Acts env s w turn) :
    ∃ resent later taken written,
      turn.writer.Sequence turn.session.outbox.items (a.follow w s turn) resent later taken
        written := by
  have hlink := hacts.link_eq
  cases traffic_of_acts hacts with
  | idle hitems hwindow hphase =>
    refine ⟨_, _, _, _, h.of_still hlink hphase.begun hphase.started.1 hphase.started.2 [] ?_
      (fun hne => absurd rfl hne) (fun hnext => ⟨hacts.going hnext, hphase.left, rfl⟩) ?_⟩
    · rw [hphase.hand, hitems]
      rfl
    · rw [hphase.hand]
      exact h.fits
  | lookUp hphase hsession hnext => exact ⟨_, _, _, _, h.of_lookUp hphase hsession hlink hnext⟩
  | stop hsession hhand hwhy hnext =>
    have hstarting : w.phase ≠ .starting := by
      intro hphase
      rw [hacts.phase_of_starting hphase] at hnext
      cases hnext
    refine h.of_end hlink hstarting hnext [] ?_ (fun hne => absurd rfl hne)
    rw [hhand, hsession]
    rfl
  | resend hphase hsession hstarts => exact h.of_resend hphase hsession hlink hstarts
  | @control bytes rest hphase hitems hsession hnext =>
    refine h.of_taken (hphase ▸ Phase.isAtQueue_taking false) hlink (.control bytes) ?_ rfl
      (.inl ⟨_, _, hnext, rfl⟩)
    rw [hphase, hitems, hsession]
    rfl
  | @transient p rest hphase hitems hsession hqos hstarts hlimit =>
    refine h.of_taken (hphase ▸ Phase.isAtQueue_taking false) hlink (.publish p) ?_ ?_
      (hstarts.cases (.publish p) fun frame hframe => ⟨none, by simp [hqos], hframe⟩)
    · rw [hphase, hitems, hsession]
      rfl
    · rw [takes, hlimit]
      rfl
  | @drop p rest hphase hitems hsession hlimit hnext =>
    have hqueue : w.phase.IsAtQueue := hphase ▸ Phase.isAtQueue_taking false
    have hstill : turn.writer.phase ≠ .starting ∧ turn.writer.phase.hand = [] ∧
        turn.writer.phase.left = [] ∧ turn.writer.phase.isWriting = false := by
      rcases hnext with hnext | hnext <;> rw [hnext] <;> exact ⟨nofun, rfl, rfl, rfl⟩
    obtain ⟨hstarting, hhand, hleft, hbetween⟩ := hstill
    refine ⟨_, _, _, _, h.of_still hlink (Phase.begun_of_not_writing hbetween) hqueue.started
      hstarting [.publish p] ?_ (fun _ => h.later_eq_nil hqueue)
      (fun _ => ⟨hqueue.going, by rw [hleft, hqueue.left], ?_⟩) ?_⟩
    · rw [hphase, hhand, hitems, hsession]
      rfl
    · rw [List.filter_singleton, takes, hlimit]
      rfl
    · rw [hhand]
      exact nofun
  | @hold p rest hphase hitems hsession hlimit hqos hnext =>
    have hqueue : w.phase.IsAtQueue := hphase ▸ Phase.isAtQueue_taking false
    refine ⟨_, _, _, _, h.of_still hlink ?_ hqueue.started ?_ [] ?_ (fun hne => absurd rfl hne)
      (fun _ => ⟨hqueue.going, by rw [hnext, hqueue.left]; rfl, rfl⟩) ?_⟩
    · rw [hnext]
      exact Phase.begun_of_not_writing rfl
    · rw [hnext]
      exact nofun
    · rw [hphase, hnext, hitems, hsession]
      rfl
    · rw [hnext]
      intro q hmem
      obtain rfl := List.mem_singleton.1 hmem
      rw [takes, hlimit]
      rfl
  | giveBack hphase hreason hsession hnext =>
    have hstarting : w.phase ≠ .starting := by
      rw [hphase]
      exact nofun
    refine h.of_end hlink hstarting hnext [] ?_ (fun hne => absurd rfl hne)
    rw [hphase, hsession]
    rfl
  | @forsake p hphase hreason hlook hsession hnext =>
    have hqueue : w.phase.IsAtQueue := hphase ▸ Phase.isAtQueue_reserving p true
    refine h.of_end hlink hqueue.started hnext [.publish p] ?_ fun _ => h.later_eq_nil hqueue
    rw [hphase, hsession]
    rfl
  | @reserve p s' id hphase hreserve hsession hstarts =>
    have hmem : p ∈ w.phase.hand := by
      rw [hphase]
      exact List.mem_singleton_self p
    obtain ⟨-, hs', -⟩ := Session.reserve?_eq_some hreserve
    refine h.of_taken (hphase ▸ Phase.isAtQueue_reserving p false) hlink (.publish p) ?_
      (h.fits p hmem)
      (hstarts.cases (.publish p) fun frame hframe => ⟨some id, by simp [hheld p hmem], hframe⟩)
    rw [hphase, hsession, hs']
    rfl

end Writer

end MqttBroker
