import MqttBroker.Proofs.Session.InFlight
import MqttBroker.Proofs.Session.Operations
import MqttBroker.Proofs.Writer.Acts
/-!
What a step of a writer means for messages: which of them it moves, and which packet it starts to
write. The steps that do neither are one case here.
-/

namespace MqttBroker

namespace Writer

namespace Phase

/-- What is still to be sent again. -/
def left : Phase → List Redelivery
  | redelivering left => left
  | writing _ _ (some left) => left
  | _ => []

/-- The message held until there is a slot for it. -/
def hand : Phase → List Publication
  | reserving p _ => [p]
  | _ => []

/-- Has the writer turned to its last packet? -/
def isEnding : Phase → Bool
  | closing .. | stopped => true
  | _ => false

/-- The frame a writer starts on as it goes from one phase to the next. -/
def begun : Phase → Phase → Option Bytes
  | writing .., _ => none
  | _, writing frame _ _ => some frame
  | _, _ => none

/-- Going on from `a` to `b` neither moves a message nor starts a packet. -/
structure Continues (a b : Phase) : Prop where
  hand : b.hand = a.hand
  left : b.left = a.left
  begun : a.begun b = none
  started : a ≠ starting ∧ b ≠ starting
  going : b.isEnding = false

theorem hand_of_isEnding {phase : Phase} (h : phase.isEnding = true) : phase.hand = [] := by
  cases phase <;> first | rfl | cases h

theorem left_of_isEnding {phase : Phase} (h : phase.isEnding = true) : phase.left = [] := by
  cases phase <;> first | rfl | cases h

theorem begun_of_isEnding {a b : Phase} (h : b.isEnding = true) : a.begun b = none := by
  cases b <;> first | (cases a <;> rfl) | cases h

theorem isWriting_of_begun {a b : Phase} {frame : Bytes} (h : a.begun b = some frame) :
    b.isWriting = true := by
  cases b <;> first | rfl | (cases a <;> cases h)

theorem eq_of_begun {a : Phase} {frame bytes : Bytes} {size : Nat}
    {left : Option (List Redelivery)} (h : a.begun (writing bytes size left) = some frame) :
    frame = bytes := by
  cases a <;> cases h <;> rfl

end Phase

variable {env : Surroundings} {s : Session} {w : Writer} {turn : Turn}

/-- The step starts on a packet; it fails if the packet cannot be written. -/
def Starts (w : Writer) (p : Packet) (left : Option (List Redelivery)) (turn : Turn) : Prop :=
  (∃ bytes, p.encode w.link.level = .ok bytes ∧
      turn.writer.phase = .writing bytes bytes.length left) ∨
    turn.writer.phase = .stopped ∧ turn.lost = true ∧ ∀ bytes, p.encode w.link.level ≠ .ok bytes

namespace Starts

variable {p : Packet} {left : Option (List Redelivery)}

theorem encode_of_begun (h : w.Starts p left turn) {frame : Bytes}
    (hbegun : w.phase.begun turn.writer.phase = some frame) :
    p.encode w.link.level = .ok frame := by
  rcases h with ⟨bytes, hbytes, hnext⟩ | ⟨hnext, -⟩
  · rw [hnext] at hbegun
    rw [Phase.eq_of_begun hbegun]
    exact hbytes
  · rw [hnext, Phase.begun_of_isEnding rfl] at hbegun
    cases hbegun

theorem writing (h : w.Starts p left turn) (hgoing : turn.writer.phase.isEnding = false) :
    ∃ bytes, p.encode w.link.level = .ok bytes ∧
      turn.writer.phase = .writing bytes bytes.length left := by
  rcases h with hwriting | ⟨hnext, -⟩
  · exact hwriting
  · rw [hnext] at hgoing
    cases hgoing

theorem hand (h : w.Starts p left turn) : turn.writer.phase.hand = [] := by
  rcases h with ⟨_, -, hnext⟩ | ⟨hnext, -⟩ <;> rw [hnext] <;> rfl

theorem phase_ne (h : w.Starts p left turn) {q : Publication} {parked : Bool} :
    turn.writer.phase ≠ .reserving q parked := by
  rcases h with ⟨_, -, hnext⟩ | ⟨hnext, -⟩ <;> rw [hnext] <;> exact nofun

theorem left_subset (h : w.Starts p left turn) : turn.writer.phase.left ⊆ left.getD [] := by
  rcases h with ⟨_, -, hnext⟩ | ⟨hnext, -⟩
  · rw [hnext]
    cases left <;> exact List.Subset.refl _
  · rw [hnext]
    exact List.nil_subset _

end Starts

/-- Without the item at the head of the outbox. -/
def behind (s : Session) (rest : List Outgoing) : Session :=
  { s with outbox := { s.outbox with items := rest } }

inductive Traffic (env : Surroundings) (s : Session) (w : Writer) (turn : Turn) : Prop where
  | idle (hitems : turn.session.outbox.items = s.outbox.items)
    (hwindow : turn.session.window = s.window)
    (hphase : w.phase.Continues turn.writer.phase)
  | lookUp (hphase : w.phase = .starting) (hsession : turn.session = s)
    (hnext : turn.writer.phase = .redelivering s.window.redelivery)
  | stop (hsession : turn.session = s) (hhand : w.phase.hand = [])
    (hwhy : turn.lost = true ∨ env.reason.isSome = true ∨ w.phase.isEnding = true)
    (hnext : turn.writer.phase.isEnding = true)
  | resend {r : Redelivery} {left : List Redelivery} (hphase : w.phase = .redelivering (r :: left))
    (hsession : turn.session = s) (hstarts : w.Starts r.packet (some left) turn)
  | control {bytes : Bytes} {rest : List Outgoing} (hphase : w.phase = .taking false)
    (hitems : s.outbox.items = .control bytes :: rest) (hsession : turn.session = behind s rest)
    (hnext : turn.writer.phase = .writing bytes bytes.length none)
  | transient {p : Publication} {rest : List Outgoing} (hphase : w.phase = .taking false)
    (hitems : s.outbox.items = .publish p :: rest) (hsession : turn.session = behind s rest)
    (hqos : p.qos = .atMostOnce) (hstarts : w.Starts (.publish (p.toPublish none)) none turn)
    (hlimit : w.exceedsClientLimit p = false)
  | drop {p : Publication} {rest : List Outgoing} (hphase : w.phase = .taking false)
    (hitems : s.outbox.items = .publish p :: rest) (hsession : turn.session = behind s rest)
    (hlimit : w.exceedsClientLimit p = true)
    (hnext : turn.writer.phase = .flushing ∨ turn.writer.phase = .taking false)
  | hold {p : Publication} {rest : List Outgoing} (hphase : w.phase = .taking false)
    (hitems : s.outbox.items = .publish p :: rest) (hsession : turn.session = behind s rest)
    (hlimit : w.exceedsClientLimit p = false) (hqos : p.qos ≠ .atMostOnce)
    (hnext : turn.writer.phase = .reserving p false)
  | giveBack {p : Publication} {parked : Bool} (hphase : w.phase = .reserving p parked)
    (hreason : env.reason.isSome = true)
    (hsession : turn.session = { s with outbox := s.outbox.requeue (.publish p) })
    (hnext : turn.writer.phase.isEnding = true)
  | forsake {p : Publication} (hphase : w.phase = .reserving p true)
    (hreason : env.reason.isSome = true) (hlook : env.look = .closeLate)
    (hsession : turn.session = s) (hnext : turn.writer.phase.isEnding = true)
  | reserve {p : Publication} {s' : Session} {id : UInt16} (hphase : w.phase = .reserving p false)
    (hreserve : s.reserve? w.link.inFlightLimit p = some (s', id)) (hsession : turn.session = s')
    (hstarts : w.Starts (.publish (p.toPublish (some id))) none turn)

theorem starts_put (w : Writer) (s : Session) (p : Packet) (left : Option (List Redelivery)) :
    w.Starts p left (w.put s p left) := by
  unfold put
  split
  · next bytes hbytes => exact .inl ⟨bytes, hbytes, rfl⟩
  · next error herror => exact .inr ⟨rfl, rfl, fun bytes hbytes => nomatch herror.symm.trans hbytes⟩

theorem put_session (w : Writer) (s : Session) (p : Packet) (left : Option (List Redelivery)) :
    (w.put s p left).session = s := by
  unfold put
  split <;> rfl

theorem settle_cases (w : Writer) (s : Session) :
    w.settle s = .flushing ∨ w.settle s = .taking false := by
  unfold settle
  split
  · exact .inl rfl
  · exact .inr rfl

theorem Phase.hand_of_isTransmitting {phase : Phase} (h : phase.isTransmitting = true) :
    phase.hand = [] := by
  cases phase <;> first | rfl | cases h

theorem traffic_begin {item : Outgoing} {outbox : Outbox} (hphase : w.phase = .taking false)
    (hnext : s.outbox.next? = some (item, outbox)) :
    Traffic env s w (w.begin { s with outbox } item) := by
  obtain ⟨rest, hitems, rfl⟩ := Outbox.next?_eq_some hnext
  unfold begin
  split
  · exact .control hphase hitems rfl rfl
  · split
    · next hlimit => exact .drop hphase hitems rfl hlimit (w.settle_cases _)
    · next hlimit =>
      split
      · next hqos =>
        exact .transient hphase hitems (put_session ..) hqos (starts_put ..) (by simpa using hlimit)
      · next hqos => exact .hold hphase hitems rfl (by simpa using hlimit) hqos rfl

theorem Phase.continues_resume {rest : Bytes} {size : Nat} (left : Option (List Redelivery)) :
    (Phase.writing rest size left).Continues (w.resume s left) := by
  cases left with
  | some left => exact ⟨rfl, rfl, rfl, ⟨nofun, nofun⟩, rfl⟩
  | none =>
    rcases w.settle_cases s with hsettle | hsettle
    · rw [resume, hsettle]
      exact ⟨rfl, rfl, rfl, ⟨nofun, nofun⟩, rfl⟩
    · rw [resume, hsettle]
      exact ⟨rfl, rfl, rfl, ⟨nofun, nofun⟩, rfl⟩

theorem traffic_of_acts (h : Acts env s w turn) : Traffic env s w turn := by
  cases h with
  | lookUp hphase => exact .lookUp hphase rfl rfl
  | resent hphase | flush hphase | flushed hphase | park hphase | parkReserving hphase =>
    refine .idle rfl rfl ?_
    rw [hphase]
    exact ⟨rfl, rfl, rfl, ⟨nofun, nofun⟩, rfl⟩
  | resend hphase => exact .resend hphase (put_session ..) (starts_put ..)
  | lose hphase => exact .stop rfl (Phase.hand_of_isTransmitting hphase) (.inl rfl) rfl
  | interrupt hphase hreason =>
    exact .stop rfl (Phase.hand_of_isTransmitting hphase) (.inr (.inl hreason)) rfl
  | @write _ _ _ _ _ left _ hphase =>
    refine .idle rfl rfl ?_
    rw [hphase]
    cases left <;> exact ⟨rfl, rfl, rfl, ⟨nofun, nofun⟩, rfl⟩
  | written hphase =>
    refine .idle rfl rfl ?_
    rw [hphase]
    exact Phase.continues_resume _
  | leave hphase hreason => exact .stop rfl (by rw [hphase]; rfl) (.inr (.inl hreason)) rfl
  | wake hphase _ hpermit =>
    obtain rfl := Outbox.awaken?_eq_some hpermit
    refine .idle rfl rfl ?_
    rw [hphase]
    exact ⟨rfl, rfl, rfl, ⟨nofun, nofun⟩, rfl⟩
  | take hphase hnext => exact traffic_begin hphase hnext
  | giveBack hphase hreason => exact .giveBack hphase hreason rfl rfl
  | forsake hphase hreason hlook => exact .forsake hphase hreason hlook rfl rfl
  | wakeReserving hphase hpermit =>
    obtain ⟨-, rfl⟩ := Session.awaken?_eq_some hpermit
    refine .idle rfl rfl ?_
    rw [hphase]
    exact ⟨rfl, rfl, rfl, ⟨nofun, nofun⟩, rfl⟩
  | reserve hphase hreserve => exact .reserve hphase hreserve (put_session ..) (starts_put ..)
  | finish hphase | stop hphase =>
    exact .stop rfl (by rw [hphase]; rfl) (.inr (.inr (by rw [hphase]; rfl))) rfl

namespace Traffic

theorem held (h : Traffic env s w turn) (hheld : ∀ p ∈ w.phase.hand, p.qos ≠ .atMostOnce) :
    ∀ p ∈ turn.writer.phase.hand, p.qos ≠ .atMostOnce := by
  cases h with
  | idle _ _ hphase =>
    rw [hphase.hand]
    exact hheld
  | lookUp _ _ hnext | control _ _ _ hnext =>
    rw [hnext]
    exact nofun
  | stop _ _ _ hnext | giveBack _ _ _ hnext | forsake _ _ _ _ hnext =>
    rw [Phase.hand_of_isEnding hnext]
    exact nofun
  | resend _ _ hstarts | transient _ _ _ _ hstarts | reserve _ _ _ hstarts =>
    rw [hstarts.hand]
    exact nofun
  | drop _ _ _ _ hnext => rcases hnext with hnext | hnext <;> rw [hnext] <;> exact nofun
  | hold _ _ _ _ hqos hnext =>
    rw [hnext]
    intro p hmem
    cases List.mem_singleton.1 hmem
    exact hqos

/-- Only messages above QoS 0 are put into the window, and only while there is a slot. -/
theorem window (h : Traffic env s w turn) (hsound : s.window.Sound)
    (hlimit : w.link.inFlightLimit ≤ 65535) (hheld : ∀ p ∈ w.phase.hand, p.qos ≠ .atMostOnce) :
    turn.session.window.Sound := by
  cases h with
  | idle _ hwindow => rwa [hwindow]
  | lookUp _ hsession | stop hsession | resend _ hsession | control _ _ hsession
  | transient _ _ hsession | drop _ _ hsession | hold _ _ hsession | giveBack _ _ hsession
  | forsake _ _ _ hsession =>
    rw [hsession]
    exact hsound
  | @reserve p _ _ hphase hreserve hsession =>
    obtain ⟨hroom, rfl, -⟩ := Session.reserve?_eq_some hreserve
    have hqos : p.qos ≠ .atMostOnce := hheld p (by rw [hphase]; exact List.mem_singleton_self p)
    rw [hsession]
    exact hsound.insert (by omega) hqos

/-- A writer puts no control packets into the outbox. -/
theorem controls (h : Traffic env s w turn) {bytes : Bytes}
    (hmem : .control bytes ∈ turn.session.outbox.items) : .control bytes ∈ s.outbox.items := by
  cases h with
  | idle hitems =>
    rw [hitems] at hmem
    exact hmem
  | lookUp _ hsession | stop hsession | resend _ hsession | forsake _ _ _ hsession =>
    rw [hsession] at hmem
    exact hmem
  | control _ hitems hsession | transient _ hitems hsession | drop _ hitems hsession
  | hold _ hitems hsession =>
    rw [hsession] at hmem
    rw [hitems]
    exact List.mem_cons_of_mem _ hmem
  | giveBack _ _ hsession =>
    rw [hsession] at hmem
    exact (List.mem_cons.1 hmem).resolve_left nofun
  | reserve _ hreserve hsession =>
    obtain ⟨-, rfl, -⟩ := Session.reserve?_eq_some hreserve
    rw [hsession] at hmem
    exact hmem

/-- What is still to be sent again was so before, or has just been looked up. -/
theorem left_subset (h : Traffic env s w turn) :
    turn.writer.phase.left ⊆ w.phase.left ∨ turn.writer.phase.left = s.window.redelivery := by
  cases h with
  | idle _ _ hphase => exact .inl (hphase.left ▸ List.Subset.refl _)
  | lookUp _ _ hnext =>
    rw [hnext]
    exact .inr rfl
  | stop _ _ _ hnext | giveBack _ _ _ hnext | forsake _ _ _ _ hnext =>
    rw [Phase.left_of_isEnding hnext]
    exact .inl (List.nil_subset _)
  | resend hphase _ hstarts =>
    rw [hphase]
    exact .inl (List.Subset.trans hstarts.left_subset (List.subset_cons_self _ _))
  | transient _ _ _ _ hstarts | reserve _ _ _ hstarts =>
    exact .inl (List.Subset.trans hstarts.left_subset (List.nil_subset _))
  | control _ _ _ hnext | hold _ _ _ _ _ hnext =>
    rw [hnext]
    exact .inl (List.nil_subset _)
  | drop _ _ _ _ hnext =>
    rcases hnext with hnext | hnext <;> rw [hnext] <;> exact .inl (List.nil_subset _)

/-- A writer turns to its last packet when writing fails or the connection is asked to close. -/
theorem ending (h : Traffic env s w turn) (hend : turn.writer.phase.isEnding = true) :
    turn.lost = true ∨ env.reason.isSome = true ∨ w.phase.isEnding = true := by
  have hno : ∀ {phase : Phase}, turn.writer.phase = phase → phase.isEnding ≠ false :=
    fun hnext hgoing => Bool.false_ne_true (hgoing.symm.trans (hnext ▸ hend))
  have hstarts : ∀ {p left}, w.Starts p left turn → turn.lost = true := by
    rintro p left (⟨_, -, hnext⟩ | ⟨-, hlost, -⟩)
    · exact absurd rfl (hno hnext)
    · exact hlost
  cases h with
  | idle _ _ hphase => exact absurd hphase.going (hno rfl)
  | stop _ _ hwhy => exact hwhy
  | giveBack _ hreason | forsake _ hreason => exact .inr (.inl hreason)
  | resend _ _ hs | transient _ _ _ _ hs | reserve _ _ _ hs => exact .inl (hstarts hs)
  | lookUp _ _ hnext | control _ _ _ hnext | hold _ _ _ _ _ hnext => exact absurd rfl (hno hnext)
  | drop _ _ _ _ hnext => rcases hnext with hnext | hnext <;> exact absurd rfl (hno hnext)

end Traffic

namespace Acts

/-- What a writer was started with it keeps. -/
theorem settings_eq (h : Acts env s w turn) :
    (turn.writer.link, turn.writer.threshold) = (w.link, w.threshold) := by
  have hput : ∀ s p left, ((w.put s p left).writer.link, (w.put s p left).writer.threshold) =
      (w.link, w.threshold) := by
    intro s p left
    unfold put
    split <;> rfl
  cases h with
  | resend | reserve => exact hput _ _ _
  | @take item outbox =>
    unfold begin
    split
    · rfl
    · split
      · rfl
      · split
        · exact hput _ _ _
        · rfl
  | written _ _ hw =>
    subst hw
    rfl
  | _ => rfl

theorem link_eq (h : Acts env s w turn) : turn.writer.link = w.link :=
  congrArg Prod.fst h.settings_eq

theorem threshold_eq (h : Acts env s w turn) : turn.writer.threshold = w.threshold :=
  congrArg Prod.snd h.settings_eq

theorem begin_session (w : Writer) (s : Session) (item : Outgoing) :
    (w.begin s item).session = s := by
  unfold begin
  split
  · rfl
  · split
    · rfl
    · split
      · exact put_session ..
      · rfl

/-- What a writer does not deal with stays as it is. -/
theorem session_congr {α : Type} (part : Session → α)
    (hpart : ∀ s outbox window slotFreed, part { s with outbox, window, slotFreed } = part s)
    (h : Acts env s w turn) : part turn.session = part s := by
  cases h with
  | resend => rw [put_session]
  | wake => exact hpart s _ s.window s.slotFreed
  | take =>
    rw [begin_session]
    exact hpart s _ s.window s.slotFreed
  | giveBack => exact hpart s _ s.window s.slotFreed
  | wakeReserving _ hpermit =>
    rw [(Session.awaken?_eq_some hpermit).2]
    exact hpart s s.outbox s.window _
  | reserve _ hreserve =>
    rw [put_session, (Session.reserve?_eq_some hreserve).2.1]
    exact hpart s s.outbox _ s.slotFreed
  | _ => rfl

theorem phase_begin_ne {item : Outgoing} {p : Publication} :
    (w.begin s item).writer.phase ≠ .reserving p true := by
  unfold begin
  split
  · exact nofun
  · split
    · rcases w.settle_cases s with h | h <;> rw [h] <;> exact nofun
    · split
      · exact (starts_put ..).phase_ne
      · exact nofun

/-- A writer parks for a slot when it has found none. -/
theorem parked {p : Publication} (h : Acts env s w turn)
    (hphase : turn.writer.phase = .reserving p true) :
    turn.session = s ∧ w.link.inFlightLimit ≤ s.window.size := by
  cases h with
  | parkReserving _ _ hfull => exact ⟨rfl, Session.reserve?_eq_none.1 hfull⟩
  | resend | reserve => exact absurd hphase (starts_put ..).phase_ne
  | take => exact absurd hphase phase_begin_ne
  | @written _ _ _ _ left _ w' =>
    cases left with
    | some left => cases hphase
    | none =>
      change w'.settle s = _ at hphase
      rcases w'.settle_cases s with h | h <;> rw [h] at hphase <;> cases hphase
  | _ => cases hphase

end Acts

end Writer

end MqttBroker
