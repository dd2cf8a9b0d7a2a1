import MqttBroker.Proofs.Broker.Stock
import MqttBroker.Proofs.Connection.Reception
import MqttBroker.Proofs.Network.Exchanges
import MqttBroker.Proofs.Network.Wills
import MqttBroker.Proofs.Packet.RoundTrip
/-!
The topics of the messages that reach sessions. A message comes by the broker itself, by a PUBLISH,
whose topic its handler checks, or by the will of a CONNECT, whose topic only the decoder has seen.
-/

namespace MqttBroker

open Broker (Dispatches)

variable {P : Publication → Prop} {W : Message → Prop}

/-- What the decoder lets through as a topic lacks little to be a topic name. -/
theorem Topic.isValidName_iff {topic : Bytes} (h : topic.IsTopicField) :
    isValidName topic = true ↔ topic ≠ [] ∧ 0 ∉ topic := by
  have hplus := h.plus_not_mem
  have hhash := h.hash_not_mem
  simp only [isValidName, Bool.and_eq_true, Bool.not_eq_true', List.isEmpty_eq_false_iff,
    List.any_eq_false, Bool.or_eq_true, beq_iff_eq, singleLevel, multiLevel]
  refine and_congr_right fun _ => ⟨fun hnone hmem => hnone 0 hmem (.inr rfl), ?_⟩
  rintro hzero b hmem ((rfl | rfl) | rfl)
  · exact hplus hmem
  · exact hhash hmem
  · exact hzero hmem

/-- The handler of a PUBLISH lets no other topic through. -/
theorem Packet.isValidName_of_takeIn {most : Nat} {pending : List UInt16} {p : Packet} {m : Message}
    (hm : m ∈ (p.takeIn most pending).2) : Topic.isValidName m.topic = true := by
  cases p with
  | publish q =>
    rw [takeIn, Publish.takeIn] at hm
    split at hm
    · cases hm
    next hvalid =>
    have hq : m ∈ [Message.ofPublish q] → Topic.isValidName m.topic = true := by
      intro hm
      rw [List.mem_singleton.1 hm]
      rwa [Bool.not_eq_true', Bool.not_eq_false] at hvalid
    split at hm
    · exact hq hm
    · exact hq hm
    · split at hm
      · cases hm
      split at hm
      · cases hm
      · exact hq hm
    · cases hm
  | _ => cases hm

theorem Writer.stocked_of_acts {env : Surroundings} {s : Session} {w : Writer} {turn : Turn}
    (h : s.Stocked P W) (hhand : ∀ p ∈ w.phase.hand, P p) (hacts : Acts env s w turn) :
    turn.session.Stocked P W ∧ ∀ p ∈ turn.writer.phase.hand, P p := by
  have hwill : turn.session.will = s.will :=
    hacts.session_congr Session.will fun _ _ _ _ => rfl
  have hnone : ∀ phase : Phase, phase.hand = [] → ∀ p ∈ phase.hand, P p := by
    intro phase hphase
    rw [hphase]
    exact nofun
  -- Neither a message still in the outbox nor the one taken off it is new.
  have hsame : turn.session.outbox.items = s.outbox.items → turn.session.Stocked P W :=
    fun hitems => ⟨hitems ▸ h.queued, hwill ▸ h.will⟩
  have htaken : ∀ {item rest}, s.outbox.items = item :: rest → turn.session = behind s rest →
      turn.session.Stocked P W := by
    rintro item rest hitems hsession
    refine ⟨fun p hmem => h.queued p ?_, hwill ▸ h.will⟩
    rw [hsession] at hmem
    rw [hitems]
    exact List.mem_cons_of_mem _ hmem
  cases traffic_of_acts hacts with
  | idle hitems _ hphase => exact ⟨hsame hitems, hphase.hand ▸ hhand⟩
  | lookUp _ hsession hnext => exact ⟨hsession ▸ h, hnone _ (hnext ▸ rfl)⟩
  | stop hsession _ _ hnext | forsake _ _ _ hsession hnext =>
    exact ⟨hsession ▸ h, hnone _ (Phase.hand_of_isEnding hnext)⟩
  | resend _ hsession hstarts => exact ⟨hsession ▸ h, hnone _ hstarts.hand⟩
  | control _ hitems hsession hnext => exact ⟨htaken hitems hsession, hnone _ (hnext ▸ rfl)⟩
  | transient _ hitems hsession _ hstarts => exact ⟨htaken hitems hsession, hnone _ hstarts.hand⟩
  | drop _ hitems hsession _ hnext =>
    exact ⟨htaken hitems hsession, hnone _ (by rcases hnext with h | h <;> rw [h] <;> rfl)⟩
  | hold _ hitems hsession _ _ hnext =>
    refine ⟨htaken hitems hsession, fun p hmem => h.queued p ?_⟩
    rw [hnext] at hmem
    rw [List.mem_singleton.1 hmem, hitems]
    exact List.mem_cons_self
  | @giveBack p _ hphase _ hsession hnext =>
    refine ⟨⟨fun p' hmem => ?_, hwill ▸ h.will⟩, hnone _ (Phase.hand_of_isEnding hnext)⟩
    rw [hsession] at hmem
    rcases List.mem_cons.1 hmem with hback | hold
    · cases hback
      exact hhand p (by rw [hphase]; exact List.mem_singleton_self p)
    · exact h.queued p' hold
  | reserve _ hreserve hsession hstarts =>
    refine ⟨hsame ?_, hnone _ hstarts.hand⟩
    rw [hsession, (Session.reserve?_eq_some hreserve).2.1]

namespace Connection

variable {now : Nat} {closeFirst : Bool} {look : Writer.Look} {b : Broker} {c c' : Connection}
  {turn : Turn} {connect : Connect}

/-- The message in the writer's hand, if there is one. -/
def hand (c : Connection) : List Publication := (c.writer?.map (·.2.phase.hand)).getD []

theorem taking?_of_waiting? (h : c.waiting? = none) : c.taking? = none := by
  cases hphase : c.phase with
  | takingOver =>
    rw [waiting?, hphase] at h
    cases h
  | _ => rw [taking?, hphase]

theorem canonical_of_connect? (htaking : ∀ connect ∈ c.taking?, connect.Canonical)
    (h : c.connect? = some connect) : connect.Canonical := by
  unfold connect? at h
  split at h
  · split at h
    · next hreceive =>
      cases h
      exact bodyCanonical_of_receive hreceive
    · cases h
  · next hphase =>
    cases h
    exact htaking connect (by rw [taking?, hphase]; rfl)
  · cases h

/-- Whoever waits for a session has received a canonical CONNECT. -/
theorem canonical_of_step (htaking : ∀ connect ∈ c.taking?, connect.Canonical)
    (h : c.step now closeFirst b = some turn) :
    ∀ connect ∈ turn.connection.taking?, connect.Canonical := by
  cases acts_of_step h with
  | outside _ _ _ _ hconnect =>
    exact fun connect hmem => canonical_of_connect? htaking (hconnect connect hmem)
  | bind =>
    unfold bind
    dsimp only
    split <;> exact nofun
  | read _ _ hsame =>
    rw [taking?_congr hsame]
    exact htaking
  | handle =>
    unfold handle
    dsimp only
    split <;> exact nofun
  | greet | activate | drain | conclude => exact nofun

theorem keeps_canonical : Keeps (fun c => ∀ connect ∈ c.taking?, connect.Canonical) where
  client := id
  step := canonical_of_step
  writeStep _ h := by
    obtain ⟨-, hwaiting, -⟩ := carries_of_writeStep h
    rw [taking?_of_waiting? hwaiting]
    exact nofun

/-- Only a step of the writer takes a message into the hand. -/
theorem hand_of_step (h : c.step now closeFirst b = some turn) :
    turn.connection.hand ⊆ c.hand := by
  unfold hand
  cases hw : turn.connection.writer? with
  | none => exact List.nil_subset _
  | some x =>
    obtain ⟨β, w⟩ := x
    rcases writer_of_step h hw with ⟨β', hbefore⟩ | ⟨-, rfl⟩
    · rw [hbefore]
      exact List.Subset.refl _
    · exact List.nil_subset _

/-- What a step of a connection leaves in the sessions is what was there, the will of the CONNECT,
and copies of what the packet brings that is handled, or of the will as the connection ends. -/
theorem stocked_of_step (hstocked : b.Stocked P W) (hfiled : b.Filed)
    (hnamed : ∀ accepted ∈ c.waiting?, accepted.IsNamed)
    (hconnect : ∀ connect, c.connect? = some connect → ∀ w ∈ connect.will, W (Message.ofWill w))
    (hsaid : ∀ β p, c.handles? closeFirst b = some (β, p) → ∀ m ∈ (b.handle β p).messages,
      ∀ qos, P (Publication.ofMessage m qos))
    (hparting : turn.connection.binding? = none → ∀ β ∈ c.binding?,
      ∀ m ∈ (b.session β.session).will, ∀ qos, P (Publication.ofMessage m qos))
    (h : c.step now closeFirst b = some turn) : turn.broker.Stocked P W := by
  cases acts_of_step h with
  | outside _ _ _ hasks => exact hstocked.asks hasks
  | bind hreceived hasks hadmitted =>
    have hcarries : Broker.Carries [] 0 [] b _ := Broker.carries_of_asks 0 hasks
    exact (hstocked.asks hasks).bind (hcarries.filed hfiled) (hadmitted.elim (fun h => hnamed _ h.1) And.left)
      (hconnect _ hreceived) _
  | greet | read => exact hstocked
  | activate => exact hstocked.updateSession ⟨(hstocked _).queued, (hstocked _).will⟩
  | @handle c' β deadline w p _ hhandles =>
    have hhandled : (b.handle β p).broker.Stocked P W :=
      Handled.stocked_onPacket hstocked p (hsaid β p hhandles)
    have hdrained := fun result => hhandled.asks (asks_recordError _ (b.handle β p).binding result)
    unfold handle
    dsimp only
    split
    · exact hhandled
    · exact hdrained _
    · exact hdrained _
  | drain _ _ hasks => exact (hstocked.asks hasks).asks (asks_recordError ..)
  | @conclude β result hbefore =>
    have hasks := asks_recordError b β result
    refine (hstocked.asks hasks).release β ?_
    rw [Broker.session_of_asks hasks]
    exact hparting rfl β hbefore

theorem stocked_of_writeStep (hstocked : b.Stocked P W) (hhand : ∀ p ∈ c.hand, P p)
    (h : c.writeStep now look b = some turn) :
    turn.broker.Stocked P W ∧ ∀ p ∈ turn.connection.hand, P p := by
  obtain ⟨β, w, turn', hwriter, hacts, hwriter', hasks⟩ := writes_of_writeStep h
  rw [hand, hwriter] at hhand
  obtain ⟨hsession, hhand'⟩ := Writer.stocked_of_acts (hstocked β.session) hhand hacts
  have hput : (b.putSession β.session turn'.session).Stocked P W := hstocked.putSession hsession
  refine ⟨hput.asks hasks, ?_⟩
  rw [hand, hwriter']
  exact hhand'

end Connection

namespace Network

variable {limits : Limits} {n n' : Network} {move : Move} {moves : List Move} {i : Nat}
  {m : Message}

/-- What is dispatched between `n` and `n'`. -/
def said (n : Network) (move : Move) (n' : Network) : List Message :=
  match move with
  | .publish m => [m]
  | .step i _ _ | .write i _ _ => n.words i move n'
  | .accept .. | .client .. | .shutdown => []

/-- What is dispatched in a run, in order. -/
def sayings : List Move → Network → List Message
  | [], _ => []
  | move :: moves, n => match n.step move with
    | some n' => n.said move n' ++ sayings moves n'
    | none => []

/-- Every PUBLISH that waits in a session or is in a writer's hand satisfies `P`, and no will has a
topic that the decoder refuses. -/
structure Stocked (P : Publication → Prop) (n : Network) : Prop where
  sessions : n.broker.Stocked P fun m => m.topic.IsTopicField
  hands : ∀ c ∈ n.connections, ∀ p ∈ c.hand, P p
  taking : ∀ c ∈ n.connections, ∀ connect ∈ c.taking?, connect.Canonical

namespace Stocked

theorem start (limits : Limits) (credentials : Option Authenticator) (uuids : Nat → BitVec 128) :
    (start limits credentials uuids).Stocked P where
  sessions _ := Session.Stocked.fresh ..
  hands := by rintro _ ⟨⟩
  taking := by rintro _ ⟨⟩

theorem of_broker (h : n.Stocked P) {b : Broker}
    (hb : b.Stocked P fun m => m.topic.IsTopicField) : Stocked P { n with broker := b } :=
  ⟨hb, h.hands, h.taking⟩

theorem of_turn (h : n.Stocked P) {turn : Connection.Turn}
    (hbroker : turn.broker.Stocked P fun m => m.topic.IsTopicField)
    (hhand : ∀ p ∈ turn.connection.hand, P p)
    (htaking : ∀ c ∈ (n.withTurn i turn).connections, ∀ connect ∈ c.taking?, connect.Canonical) :
    (n.withTurn i turn).Stocked P := by
  refine ⟨hbroker, fun c hc => ?_, htaking⟩
  rcases List.mem_or_eq_of_mem_set hc with hold | rfl
  · exact h.hands c hold
  · exact hhand

theorem of_step (h : n.Stocked P) (hsound : n.Sound limits) (hstep : n.step move = some n')
    (hsaid : ∀ m ∈ n.said move n', ∀ qos, P (Publication.ofMessage m qos)) : n'.Stocked P := by
  have htaking := forall_of_step Connection.keeps_canonical (fun _ _ _ => nofun) h.taking hstep
  cases move with
  | accept now capacity =>
    cases hstep
    refine ⟨h.sessions, fun c hc => ?_, htaking⟩
    rcases List.mem_append.1 hc with hold | hnew
    · exact h.hands c hold
    · cases List.mem_singleton.1 hnew
      exact nofun
  | client i inbound outbound =>
    obtain ⟨c, hc, rfl⟩ := Option.map_eq_some_iff.1 hstep
    let turn : Connection.Turn :=
      { broker := n.broker, connection := { c with inbound, outbound } }
    have hturn : (n.withTurn i turn).Stocked P :=
      h.of_turn h.sessions (h.hands c (List.mem_of_getElem? hc)) htaking
    exact hturn
  | step i now closeFirst =>
    obtain ⟨c, hc, hstep⟩ := Option.bind_eq_some_iff.1 hstep
    obtain ⟨turn, hturn, rfl⟩ := Option.map_eq_some_iff.1 hstep
    have hmem := List.mem_of_getElem? hc
    refine h.of_turn ?_ (fun p hp => h.hands c hmem p (Connection.hand_of_step hturn hp)) htaking
    refine Connection.stocked_of_step h.sessions hsound.filed (hsound.named c hmem) ?_ ?_ ?_ hturn
    · intro connect hconnect w hw
      exact ((Connection.canonical_of_connect? (h.taking c hmem) hconnect).will w hw).topic
    · intro β p hhandles m hm
      refine hsaid m (List.mem_append_left _ ?_)
      rw [handling?_step hc, hhandles]
      exact hm
    · intro hafter β hβ m hm
      refine hsaid m (List.mem_append_right _ ?_)
      rw [parting, binding?_eq_some hc, hβ, binding?_withTurn hc, hafter]
      exact Option.mem_toList.2 hm
  | write i now look =>
    obtain ⟨c, hc, hstep⟩ := Option.bind_eq_some_iff.1 hstep
    obtain ⟨turn, hturn, rfl⟩ := Option.map_eq_some_iff.1 hstep
    obtain ⟨hbroker, hhand⟩ :=
      Connection.stocked_of_writeStep h.sessions (h.hands c (List.mem_of_getElem? hc)) hturn
    exact h.of_turn hbroker hhand htaking
  | publish m =>
    cases hstep
    exact h.of_broker (h.sessions.dispatch (hsaid m (List.mem_singleton_self m)))
  | shutdown =>
    cases hstep
    exact h.of_broker h.sessions.shutdown

/-- The will that a connection leaves behind is one that the decoder let through. -/
theorem isTopicField_of_parting (h : n.Stocked P) (hm : m ∈ n.parting i n') :
    m.topic.IsTopicField := by
  unfold parting at hm
  split at hm
  · exact (h.sessions _).will m (Option.mem_toList.1 hm)
  · cases hm

/-- Whatever is dispatched in a run, its copies are what waits in the sessions afterwards. -/
theorem of_run (h : n.Stocked P) (hsound : n.Sound limits) (hrun : run moves n = some n')
    (hsaid : ∀ m ∈ sayings moves n, ∀ qos, P (Publication.ofMessage m qos)) : n'.Stocked P := by
  induction moves generalizing n with
  | nil =>
    cases hrun
    exact h
  | cons move moves ih =>
    obtain ⟨n₁, hstep, hrun⟩ := Option.bind_eq_some_iff.1 hrun
    rw [sayings, hstep] at hsaid
    have h₁ := h.of_step hsound hstep fun m hm => hsaid m (List.mem_append_left _ hm)
    exact ih h₁ (hsound.of_step hstep) hrun fun m hm => hsaid m (List.mem_append_right _ hm)

theorem isTopicField_of_partings (h : n.Stocked fun _ => True) (hsound : n.Sound limits)
    (hm : m ∈ partings i moves n) : m.topic.IsTopicField := by
  induction moves generalizing n with
  | nil => cases hm
  | cons move moves ih =>
    rw [partings] at hm
    split at hm
    · next n₁ hstep =>
      rcases List.mem_append.1 hm with hnow | hlater
      · exact h.isTopicField_of_parting hnow
      · exact ih (h.of_step hsound hstep fun _ _ _ => trivial) (hsound.of_step hstep) hlater
    · cases hm

end Stocked

theorem cases_of_mem_said (hm : m ∈ n.said move n') :
    move = .publish m ∨ (∃ x, n.handling? move n' = some x ∧ m ∈ x.dispatched) ∨
      ∃ i, m ∈ n.parting i n' := by
  have hwords : ∀ i, m ∈ n.words i move n' →
      (∃ x, n.handling? move n' = some x ∧ m ∈ x.dispatched) ∨ ∃ i, m ∈ n.parting i n' := by
    intro i hm
    rcases List.mem_append.1 hm with hpacket | hwill
    · cases hx : n.handling? move n' with
      | none =>
        rw [hx] at hpacket
        cases hpacket
      | some x =>
        rw [hx] at hpacket
        exact .inl ⟨x, rfl, hpacket⟩
    · exact .inr ⟨i, hwill⟩
  cases move with
  | publish m' => exact .inl (congrArg Move.publish (List.mem_singleton.1 hm).symm)
  | step i now closeFirst => exact .inr (hwords i hm)
  | write i now look => exact .inr (hwords i hm)
  | accept | client | shutdown => cases hm

/-- What is dispatched comes from the broker itself, a packet or a will. -/
theorem cases_of_mem_sayings (hm : m ∈ sayings moves n) :
    .publish m ∈ moves ∨ (∃ x ∈ handlings moves n, m ∈ x.dispatched) ∨
      ∃ i, m ∈ partings i moves n := by
  induction moves generalizing n with
  | nil => cases hm
  | cons move moves ih =>
    cases hstep : n.step move with
    | none =>
      rw [sayings, hstep] at hm
      cases hm
    | some n₁ =>
      simp only [sayings, handlings, partings, hstep, List.mem_append] at hm ⊢
      rcases hm with hnow | hlater
      · rcases cases_of_mem_said hnow with rfl | ⟨x, hx, hm⟩ | ⟨i, hm⟩
        · exact .inl List.mem_cons_self
        · exact .inr (.inl ⟨x, .inl (Option.mem_toList.2 hx), hm⟩)
        · exact .inr (.inr ⟨i, .inl hm⟩)
      · rcases ih hlater with hown | ⟨x, hx, hm⟩ | ⟨i, hm⟩
        · exact .inl (List.mem_cons_of_mem _ hown)
        · exact .inr (.inl ⟨x, .inr hx, hm⟩)
        · exact .inr (.inr ⟨i, .inr hm⟩)

/-- What reaches the sessions in a run. What a turn of a connection dispatches is what its packet
brings, or the will as it ends. A message of a packet has a valid topic name. A will has a topic
without wildcards, which may yet be empty or hold a zero byte. And every PUBLISH that waits in an
outbox is a copy of such a message, or of one the broker itself has published. -/
theorem topics_of_run {credentials : Option Authenticator} {uuids : Nat → BitVec 128}
    (hrun : run moves (start limits credentials uuids) = some n) :
    (∀ m move m' i, Passes moves (start limits credentials uuids) m move m' →
        move.turn? = some i → ∀ β ∈ m.binding? i,
          Dispatches β.session (m.words i move m') m.broker m'.broker) ∧
      (∀ x ∈ handlings moves (start limits credentials uuids), ∀ m ∈ x.dispatched,
        Topic.isValidName m.topic = true) ∧
      (∀ i, ∀ m ∈ partings i moves (start limits credentials uuids),
        m.topic.IsTopicField ∧
          (Topic.isValidName m.topic = true ↔ m.topic ≠ [] ∧ 0 ∉ m.topic)) ∧
      ∀ id p, .publish p ∈ (n.broker.session id).outbox.items →
        ∃ m qos, p = Publication.ofMessage m qos ∧
          (.publish m ∈ moves ∨
            (∃ x ∈ handlings moves (start limits credentials uuids), m ∈ x.dispatched) ∨
            ∃ i, m ∈ partings i moves (start limits credentials uuids)) := by
  have hsound := start_sound limits credentials uuids
  refine ⟨?_, fun x hx m hm => ?_, fun i m hm => ?_, fun id p hmem => ?_⟩
  · intro m move m' i hpasses hmove β hβ
    exact (hsound.of_passes hpasses).words_of_turn hpasses.step_eq hmove hβ
  · have hx := (hsound.sound_of_mem_handlings hx).takeIn_eq
    have hdispatched : x.dispatched = _ := congrArg Prod.snd hx
    exact Packet.isValidName_of_takeIn (hdispatched ▸ hm)
  · have htopic := (Stocked.start limits credentials uuids).isTopicField_of_partings hsound hm
    exact ⟨htopic, Topic.isValidName_iff htopic⟩
  · have hstocked := (Stocked.start limits credentials uuids).of_run
      (P := fun p => ∃ m ∈ sayings moves (start limits credentials uuids), ∃ qos,
        p = Publication.ofMessage m qos) hsound hrun fun m hm qos => ⟨m, hm, qos, rfl⟩
    obtain ⟨m, hm, qos, rfl⟩ := (hstocked.sessions id).queued p hmem
    exact ⟨m, qos, rfl, cases_of_mem_sayings hm⟩

/-- A client subscribes to "#", and another one has a will without a topic and is lost. -/
def unnamed : List Move :=
  .accept 0 64 ::
      sending 0 [0x10, 0x0d, 0, 4, 0x4d, 0x51, 0x54, 0x54, 4, 2, 0, 0, 0, 1, 0x73, 0x82, 6, 0, 1, 0,
        1, 0x23, 0] ++ [.step 0 0 false, .step 0 0 false] ++
    .accept 0 64 ::
      sending 1 [0x10, 0x12, 0, 4, 0x4d, 0x51, 0x54, 0x54, 4, 6, 0, 0, 0, 1, 0x61, 0, 0, 0, 1,
        0x67] ++
    [.step 1 0 false,
      .client 1 { capacity := 64, closed := true } { capacity := 64, closed := true },
      .step 1 0 false] ++ leaving 1 5

theorem topics_of_run_unnamed :
    ∃ n p, run unnamed (start {}) = some n ∧
      .publish p ∈ (n.broker.session 0).outbox.items ∧ p.topic = [] ∧
      ∃ m qos, p = Publication.ofMessage m qos ∧
        (.publish m ∈ unnamed ∨ (∃ x ∈ handlings unnamed (start {}), m ∈ x.dispatched) ∨
          ∃ i, m ∈ partings i unnamed (start {})) := by
  have hend : (run unnamed (start {})).map (fun n => (n.broker.session 0).outbox.items) =
      some [.control [0x90, 3, 0, 1, 0],
        .publish { topic := [], payload := [0x67], qos := .atMostOnce }] := by decide +kernel
  obtain ⟨n, hrun, hitems⟩ := Option.map_eq_some_iff.1 hend
  have hmem : .publish { topic := [], payload := [0x67], qos := .atMostOnce } ∈
      (n.broker.session 0).outbox.items := by
    rw [hitems]
    decide
  exact ⟨n, _, hrun, hmem, rfl, (topics_of_run hrun).2.2.2 0 _ hmem⟩

/-- A will without a topic is published, and it waits to be written to a subscriber. -/
theorem not_isValidName_of_run : ¬ ∀ (limits : Limits) (credentials : Option Authenticator)
    (uuids : Nat → BitVec 128) (moves : List Move) (n : Network),
      run moves (start limits credentials uuids) = some n →
        (∀ x ∈ handlings moves (start limits credentials uuids), ∀ m ∈ x.dispatched,
          Topic.isValidName m.topic = true) ∧
        (∀ i, ∀ m ∈ partings i moves (start limits credentials uuids),
          Topic.isValidName m.topic = true) ∧
        ((∀ m, .publish m ∉ moves) → ∀ id p, .publish p ∈ (n.broker.session id).outbox.items →
          Topic.isValidName p.topic = true) := by
  intro hall
  have hend : (run unnamed (start {})).map
      (fun _ => partings 1 unnamed (start {})) =
        some [{ topic := [], payload := [0x67], qos := .atMostOnce }] := by decide +kernel
  obtain ⟨n, hrun, hpartings⟩ := Option.map_eq_some_iff.1 hend
  have hvalid := (hall {} none _ unnamed n hrun).2.1 1
    { topic := [], payload := [0x67], qos := .atMostOnce }
  rw [hpartings] at hvalid
  exact absurd (hvalid (List.mem_singleton_self _)) (by decide)

end Network

end MqttBroker
