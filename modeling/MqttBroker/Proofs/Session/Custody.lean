import Mathlib.Data.List.Forall2
import Mathlib.Data.List.Induction
import MqttBroker.Proofs.Packet.Frame
import MqttBroker.Proofs.Packet.Written
import MqttBroker.Proofs.Session.Regular
/-!
Where the messages above QoS 0 are that a session has taken in: in the outbox, in the writer's hand,
in the in-flight window, or gone for a known reason. A record is kept beside the moves of a session
and the connections that use it, and every move keeps the record and the session in agreement. One
of the reasons is that the writer loses the message it holds.
-/

namespace MqttBroker

/-- A message with the identifier it was sent under. -/
structure Sending where
  packetId : UInt16
  publication : Publication
deriving DecidableEq

namespace Sending

def packet (s : Sending) : Packet := .publish (s.publication.toPublish (some s.packetId))

end Sending

def InFlight.sending (e : InFlight) : Sending := ⟨e.packetId, e.publication⟩

/-- The message of an item that later connections still have to deliver. -/
def Outgoing.lasting? : Outgoing → Option Publication
  | publish p => if p.qos = .atMostOnce then none else some p
  | control _ => none

def Outbox.lasting (o : Outbox) : List Publication := o.items.filterMap Outgoing.lasting?

/-- How a message left the outbox and the writer's hand for good. -/
inductive Passage where
  | sent (s : Sending)
  /-- The client does not take packets as large as this. -/
  | dropped (p : Publication)
  /-- The writer was stopped outside its wait for a slot. -/
  | lost (p : Publication)
deriving DecidableEq

namespace Passage

def publication : Passage → Publication
  | sent s => s.publication
  | dropped p | lost p => p

def sending? : Passage → Option Sending
  | sent s => some s
  | dropped _ | lost _ => none

def dropped? : Passage → Option Publication
  | dropped p => some p
  | sent _ | lost _ => none

def lost? : Passage → Option Publication
  | lost p => some p
  | sent _ | dropped _ => none

end Passage

/-- Is this a PUBLISH above QoS 0 that is not marked as a repetition? -/
def isFirstPublish : Bytes → Bool
  | [] => false
  | first :: _ =>
    first.toNat / 16 = Kind.publish.code && first.toNat / 8 % 2 = 0 && first.toNat / 2 % 4 ≠ 0

theorem isFirstPublish_encode {p : Packet} {level : Level} {frame : Bytes}
    (h : p.encode level = .ok frame) :
    isFirstPublish frame = true ↔ ∃ m, p = .publish m ∧ m.dup = false ∧ m.qos ≠ .atMostOnce := by
  obtain ⟨content, -, -, -, rfl⟩ := Packet.encode_eq_ok.1 h
  have hflags := p.flags_lt
  have hkind : (16 * p.kind.code + p.flags) / 16 = p.kind.code := by omega
  have hdup : (16 * p.kind.code + p.flags) / 8 % 2 = p.flags / 8 % 2 := by omega
  have hqos : (16 * p.kind.code + p.flags) / 2 % 4 = p.flags / 2 % 4 := by omega
  simp only [isFirstPublish, Packet.toNat_firstByte, hkind, hdup, hqos]
  cases p with
  | publish m =>
    obtain ⟨dup, qos, retain, topic, packetId, properties, payload⟩ := m
    cases dup <;> cases qos <;> cases retain <;>
      simp [Packet.flags, Publish.flags, Flag.weight, QoS.rank, Packet.kind]
  | _ => simp [Packet.kind, Kind.code]

theorem isFirstPublish_control {bytes : Bytes} (h : Outgoing.IsControlPacket bytes) :
    isFirstPublish bytes = false := by
  obtain ⟨p, level, hkind, hbytes⟩ := h
  refine Bool.eq_false_iff.2 fun hfirst => hkind ?_
  obtain ⟨m, rfl, -⟩ := (isFirstPublish_encode hbytes).1 hfirst
  rfl

/-- A record of a session's messages above QoS 0 and of what its writers wrote. -/
structure Ledger where
  /-- What the outbox took in. -/
  accepted : List Publication := []
  /-- What left the outbox and the writer's hand for good. -/
  passages : List Passage := []
  /-- What was acknowledged to the end or refused by the client. -/
  finished : List Sending := []
  /-- The frames that were begun. -/
  frames : List Bytes := []
deriving DecidableEq

namespace Ledger

open Tenancy (Move)

def accept (a : Ledger) (s : Session) (m : Message) : Ledger :=
  match s.offer m with
  | (s', .queued) =>
    { a with accepted := a.accepted ++ (s'.outbox.items.getLast?.bind Outgoing.lasting?).toList }
  | _ => a

/-- Notes the entry an acknowledgement is for. -/
def finish (a : Ledger) (s : Session) (p : InFlight → Bool) : Ledger :=
  { a with
    finished := a.finished ++ ((s.window.entries.find? p).map InFlight.sending).toList }

/-- What the writer held, if it holds nothing any more and the session is as it was. -/
def forsaken (w w' : Writer) (s s' : Session) : List Publication :=
  if w'.phase.hand = [] ∧ s' = s then w.phase.hand else []

/-- What went through the writer's hands as it went from `w` to `w'` and the session from `s` to
`s'`: entries that are new in the window, a message off the outbox that is too large for the client,
and one that was in the writer's hand and is nowhere now. -/
def passed (w w' : Writer) (s s' : Session) : List Passage :=
  ((s'.window.entries.drop s.window.entries.length).map fun e => .sent e.sending) ++
    (match w.phase, s.outbox.items with
    | .taking _, .publish p :: rest =>
      if s'.outbox.items = rest ∧ p.qos ≠ .atMostOnce ∧ w.exceedsClientLimit p then [.dropped p]
      else []
    | _, _ => []) ++
    (forsaken w w' s s').map .lost

def note (t : Tenancy) (move : Move) (t' : Tenancy) (a : Ledger) : Ledger :=
  match move with
  | .offer m => a.accept t.session m
  | .ack id => a.finish t.session fun e => e.awaits = some (.pubAck id)
  | .complete id => a.finish t.session fun e => e.awaits = some (.pubComp id)
  | .abandon id => a.finish t.session fun e => e.packetId = id
  | .write .. => match t.writer?, t'.writer? with
    | some w, some w' =>
      { a with
        passages := a.passages ++ passed w w' t.session t'.session
        frames := a.frames ++ (w.phase.begun w'.phase).toList }
    | _, _ => a
  | _ => a

variable {w w' : Writer} {s s' : Session}

theorem forsaken_of_hand (h : w.phase.hand = []) : forsaken w w' s s' = [] := by
  rw [forsaken, h, ite_self]

theorem forsaken_of_kept (h : w'.phase.hand = w.phase.hand) : forsaken w w' s s' = [] := by
  unfold forsaken
  split
  · next hnone => rw [← h, hnone.1]
  · rfl

theorem forsaken_of_ne (h : s' ≠ s) : forsaken w w' s s' = [] := if_neg fun hsame => h hsame.2

theorem passed_of_same (hwindow : s'.window = s.window)
    (hitems : s'.outbox.items = s.outbox.items) :
    passed w w' s s' = (forsaken w w' s s').map .lost := by
  unfold passed
  rw [hwindow, hitems, List.drop_length]
  split
  · next hcons =>
    rw [hcons, if_neg fun h => List.cons_ne_self _ _ h.1]
    rfl
  · rfl

theorem passed_control {parked : Bool} {bytes : Bytes} {rest : List Outgoing}
    (hwindow : s'.window = s.window) (hphase : w.phase = .taking parked)
    (hitems : s.outbox.items = .control bytes :: rest) : passed w w' s s' = [] := by
  unfold passed
  rw [hwindow, hitems, List.drop_length, forsaken_of_hand (by rw [hphase]; rfl)]
  split
  · next hcons => cases hcons
  · rfl

theorem passed_publish {parked : Bool} {p : Publication} {rest : List Outgoing}
    (hwindow : s'.window = s.window) (hphase : w.phase = .taking parked)
    (hitems : s.outbox.items = .publish p :: rest) (hitems' : s'.outbox.items = rest) :
    passed w w' s s' =
      if p.qos ≠ .atMostOnce ∧ w.exceedsClientLimit p then [.dropped p] else [] := by
  unfold passed
  rw [hwindow, hitems, hitems', forsaken_of_hand (by rw [hphase]; rfl), hphase, List.drop_length]
  simp only [true_and, List.map_nil, List.nil_append, List.append_nil]

theorem passed_reserving {parked : Bool} {p : Publication}
    (hphase : w.phase = .reserving p parked) :
    passed w w' s s' =
      ((s'.window.entries.drop s.window.entries.length).map fun e => .sent e.sending) ++
        (forsaken w w' s s').map .lost := by
  unfold passed
  rw [hphase]
  exact congrArg (· ++ _) (List.append_nil _)

end Ledger

/-- The messages that the record has as lost. -/
def Ledger.lost (a : Ledger) : List Publication := a.passages.filterMap Passage.lost?

theorem Ledger.lost_passed (w w' : Writer) (s s' : Session) :
    (passed w w' s s').filterMap Passage.lost? = forsaken w w' s s' := by
  have hsent : ∀ entries : List InFlight,
      (entries.map fun e => Passage.sent e.sending).filterMap Passage.lost? = [] :=
    fun entries => List.filterMap_eq_nil_iff.2 (List.forall_mem_map.2 fun _ _ => rfl)
  have hlost : ∀ held : List Publication, (held.map .lost).filterMap Passage.lost? = held := by
    intro held
    rw [List.filterMap_map]
    exact List.filterMap_some
  unfold passed
  rw [List.filterMap_append, List.filterMap_append, hsent, hlost, List.nil_append]
  split
  · split <;> rfl
  · rfl

/-- Each PUBLISH among the frames that is no repetition is the first writing of a message of its
own. -/
def WrittenOnce (sent : List Sending) (frames : List Bytes) : Prop :=
  ∃ firsts, firsts.Sublist sent ∧
    List.Forall₂ (fun s frame => ∃ level, s.packet.encode level = .ok frame) firsts
      (frames.filter isFirstPublish)

namespace WrittenOnce

variable {sent sent' : List Sending} {frames frames' : List Bytes}

theorem append (h : WrittenOnce sent frames) (h' : WrittenOnce sent' frames') :
    WrittenOnce (sent ++ sent') (frames ++ frames') := by
  obtain ⟨firsts, hsub, hall⟩ := h
  obtain ⟨firsts', hsub', hall'⟩ := h'
  refine ⟨firsts ++ firsts', hsub.append hsub', ?_⟩
  rw [List.filter_append]
  exact List.rel_append hall hall'

theorem of_repeats (sent : List Sending) (h : ∀ frame ∈ frames, isFirstPublish frame = false) :
    WrittenOnce sent frames := by
  have hnone : frames.filter isFirstPublish = [] :=
    List.filter_eq_nil_iff.2 fun frame hmem => by rw [h frame hmem]; exact Bool.false_ne_true
  refine ⟨[], List.nil_sublist _, ?_⟩
  rw [hnone]
  exact .nil

theorem of_encode {s : Sending} {level : Level} {frame : Bytes}
    (h : s.packet.encode level = .ok frame) : WrittenOnce [s] [frame] := by
  cases hfirst : isFirstPublish frame with
  | true =>
    refine ⟨[s], List.Sublist.refl _, ?_⟩
    rw [List.filter_cons_of_pos hfirst]
    exact .cons ⟨level, h⟩ .nil
  | false =>
    refine of_repeats _ fun frame' hmem => ?_
    rw [List.mem_singleton.1 hmem]
    exact hfirst

end WrittenOnce

/-! ### What an operation on the session does to its messages -/

namespace Outbox

theorem lasting_discardTransient (o : Outbox) : o.discardTransient.lasting = o.lasting := by
  unfold discardTransient lasting
  rw [List.filterMap_filter]
  refine List.filterMap_congr fun item _ => ?_
  cases item with
  | control => rfl
  | publish p =>
    cases hqos : p.qos with
    | atMostOnce => simp [Outgoing.isLasting, Outgoing.lasting?, hqos]
    | atLeastOnce | exactlyOnce => simp [Outgoing.isLasting, hqos]

end Outbox

namespace Window

def sendings (w : Window) : List Sending := w.entries.map InFlight.sending

theorem sendings_received {w w' : Window} {id : UInt16} (h : w.received? id = some w') :
    w'.sendings = w.sendings := by
  rcases received?_eq_some h with ⟨rfl, -⟩ | hreleases
  · rfl
  · exact hreleases.map_eq fun _ => rfl

theorem perm_eraseP (p : InFlight → Bool) (entries : List InFlight) :
    entries.Perm (entries.eraseP p ++ (entries.find? p).toList) := by
  induction entries with
  | nil => exact .nil
  | cons e entries ih =>
    cases hp : p e with
    | true =>
      rw [List.eraseP_cons_of_pos hp, List.find?_cons_of_pos hp]
      exact (List.perm_append_singleton e entries).symm
    | false =>
      rw [List.eraseP_cons_of_neg (by simp [hp]), List.find?_cons_of_neg (by simp [hp])]
      exact ih.cons e

end Window

namespace Session

@[simp] theorem append_lasting (s : Session) (item : Outgoing) :
    (s.append item).outbox.lasting = s.outbox.lasting ++ item.lasting?.toList := by
  simp only [Outbox.lasting, append_items, List.filterMap_append]
  cases h : item.lasting? <;> simp [h]

theorem ne_of_reserve? {s s' : Session} {limit : Nat} {p : Publication} {id : UInt16}
    (h : s.reserve? limit p = some (s', id)) : s' ≠ s := by
  rintro rfl
  obtain ⟨-, hs', -⟩ := reserve?_eq_some h
  have hentries := congrArg (·.window.entries) hs'
  exact List.cons_ne_nil _ _ (List.self_eq_append_right.1 hentries)

/-- What an acknowledgement takes out of the window is what the record notes as finished. -/
theorem perm_settle {s : Session} {p : InFlight → Bool} {window? : Option Window}
    (h : s.window.Removes p window?) :
    s.window.sendings.Perm ((s.settle window?).1.window.sendings ++
      ((s.window.entries.find? p).map InFlight.sending).toList) := by
  rcases h with ⟨rfl, hnone⟩ | rfl
  · rw [hnone]
    exact List.Perm.of_eq (List.append_nil _).symm
  · have hperm := (Window.perm_eraseP p s.window.entries).map InFlight.sending
    rw [List.map_append] at hperm
    rwa [Option.toList_map]

end Session

/-! ### What a step of a writer does to the messages -/

/-- A step of a writer leaves the messages where they are, drops or loses one, or sends one. -/
inductive Handover (s : Session) (w : Writer) (turn : Writer.Turn) : Prop where
  | keeps (hpassed : Ledger.passed w turn.writer s turn.session = [])
    (hplaces : w.phase.hand ++ s.outbox.lasting =
      turn.writer.phase.hand ++ turn.session.outbox.lasting)
    (hwindow : turn.session.window = s.window)
    (hframe : ∀ frame, w.phase.begun turn.writer.phase = some frame → isFirstPublish frame = false)
  | leaves {x : Passage} (hpassed : Ledger.passed w turn.writer s turn.session = [x])
    (hunsent : x.sending? = none)
    (hplaces : w.phase.hand ++ s.outbox.lasting =
      x.publication :: (turn.writer.phase.hand ++ turn.session.outbox.lasting))
    (hwindow : turn.session.window = s.window)
    (hframe : w.phase.begun turn.writer.phase = none)
  | sends {x : Sending} (hpassed : Ledger.passed w turn.writer s turn.session = [.sent x])
    (hplaces : w.phase.hand ++ s.outbox.lasting =
      x.publication :: (turn.writer.phase.hand ++ turn.session.outbox.lasting))
    (hwindow : turn.session.window.sendings = s.window.sendings ++ [x])
    (hframe : ∀ frame, w.phase.begun turn.writer.phase = some frame →
      x.packet.encode w.link.level = .ok frame)

namespace Writer

variable {env : Surroundings} {s : Session} {w : Writer} {turn : Turn}

theorem lasting_of_items {o : Outbox} {item : Outgoing} {rest : List Outgoing}
    (h : o.items = item :: rest) :
    o.lasting = item.lasting?.toList ++ rest.filterMap Outgoing.lasting? := by
  rw [Outbox.lasting, h, List.filterMap_cons]
  cases item.lasting? <;> rfl

/-- Where the writer takes an item off the outbox, what lasts of the item leaves the outbox. -/
theorem lasting_of_taken {item : Outgoing} {rest : List Outgoing} (hphase : w.phase = .taking false)
    (hitems : s.outbox.items = item :: rest) (hsession : turn.session = behind s rest) :
    w.phase.hand ++ s.outbox.lasting = item.lasting?.toList ++ turn.session.outbox.lasting := by
  rw [hphase, hsession, lasting_of_items hitems]
  rfl

theorem passed_of_taken {p : Publication} {rest : List Outgoing} (hphase : w.phase = .taking false)
    (hitems : s.outbox.items = .publish p :: rest) (hsession : turn.session = behind s rest) :
    Ledger.passed w turn.writer s turn.session =
      if p.qos ≠ .atMostOnce ∧ w.exceedsClientLimit p then [.dropped p] else [] :=
  Ledger.passed_publish (by rw [hsession]; rfl) hphase hitems (by rw [hsession]; rfl)

/-- A packet that is a PUBLISH only of QoS 0 or again is not the first writing of a message. -/
theorem Starts.isFirstPublish_eq_false {p : Packet} {left : Option (List Redelivery)}
    (h : w.Starts p left turn)
    (hp : ∀ m, p = .publish m → m.dup = false → m.qos = .atMostOnce) {frame : Bytes}
    (hframe : w.phase.begun turn.writer.phase = some frame) : isFirstPublish frame = false := by
  refine Bool.eq_false_iff.2 fun hfirst => ?_
  obtain ⟨m, hm, hdup, hqos⟩ := (isFirstPublish_encode (h.encode_of_begun hframe)).1 hfirst
  exact hqos (hp m hm hdup)

theorem handover_of_session_eq (hsession : turn.session = s)
    (hhand : w.phase.hand = turn.writer.phase.hand)
    (hframe : ∀ frame, w.phase.begun turn.writer.phase = some frame →
      isFirstPublish frame = false) : Handover s w turn := by
  refine .keeps ?_ ?_ ?_ hframe
  · rw [Ledger.passed_of_same (by rw [hsession]) (by rw [hsession]),
      Ledger.forsaken_of_kept hhand.symm]
    rfl
  · rw [hhand, hsession]
  · rw [hsession]

/-- Of the messages that are too large for the client, the record notes those above QoS 0. -/
theorem handover_of_drop {p : Publication} {rest : List Outgoing} (hphase : w.phase = .taking false)
    (hitems : s.outbox.items = .publish p :: rest) (hsession : turn.session = behind s rest)
    (hlimit : w.exceedsClientLimit p = true)
    (hnext : turn.writer.phase = .flushing ∨ turn.writer.phase = .taking false) :
    Handover s w turn := by
  have hhand : turn.writer.phase.hand = [] := by rcases hnext with h | h <;> rw [h] <;> rfl
  have hbegun : w.phase.begun turn.writer.phase = none := by
    rcases hnext with h | h <;> rw [hphase, h] <;> rfl
  have hwindow : turn.session.window = s.window := by rw [hsession]; rfl
  have hpassed := passed_of_taken hphase hitems hsession
  have hplaces := lasting_of_taken hphase hitems hsession
  rcases Decidable.em (p.qos = .atMostOnce) with hqos | hqos
  · refine .keeps ?_ ?_ hwindow (by rw [hbegun]; exact nofun)
    · rw [hpassed, if_neg fun h => h.1 hqos]
    · rw [hplaces, hhand, Outgoing.lasting?, if_pos hqos]
      rfl
  · refine .leaves (by rw [hpassed, if_pos ⟨hqos, hlimit⟩]) rfl ?_ hwindow hbegun
    rw [hplaces, hhand, Outgoing.lasting?, if_neg hqos]
    rfl

theorem handover_of_reserve {p : Publication} {s' : Session} {id : UInt16}
    (hphase : w.phase = .reserving p false)
    (hreserve : s.reserve? w.link.inFlightLimit p = some (s', id)) (hsession : turn.session = s')
    (hstarts : w.Starts (.publish (p.toPublish (some id))) none turn) : Handover s w turn := by
  obtain ⟨-, hs', rfl⟩ := Session.reserve?_eq_some hreserve
  have hentries : turn.session.window.entries =
      s.window.entries ++ [{ packetId := s.window.freshId, publication := p }] := by
    rw [hsession, hs']
    rfl
  refine .sends (x := ⟨s.window.freshId, p⟩) ?_ ?_ ?_ fun _ => hstarts.encode_of_begun
  · have hmore : turn.session ≠ s := hsession.trans_ne (Session.ne_of_reserve? hreserve)
    rw [Ledger.passed_reserving hphase, hentries, List.drop_left, Ledger.forsaken_of_ne hmore]
    rfl
  · rw [hphase, hstarts.hand, hsession, hs']
    rfl
  · rw [Window.sendings, hentries, List.map_append]
    rfl

/-- A writer gives a message up only where it sees the request to close outside its wait. -/
theorem Traffic.forsaken (h : Traffic env s w turn) :
    Ledger.forsaken w turn.writer s turn.session = [] ∨
      ∃ p, Ledger.forsaken w turn.writer s turn.session = [p] ∧ w.phase = .reserving p true ∧
        env.look = .closeLate ∧ env.reason.isSome = true := by
  cases h with
  | idle _ _ hphase => exact .inl (Ledger.forsaken_of_kept hphase.hand)
  | stop _ hhand => exact .inl (Ledger.forsaken_of_hand hhand)
  | lookUp hphase | resend hphase | control hphase | transient hphase | drop hphase
  | hold hphase => exact .inl (Ledger.forsaken_of_hand (by rw [hphase]; rfl))
  | giveBack _ _ hsession =>
    refine .inl (Ledger.forsaken_of_ne fun hsame => ?_)
    exact List.cons_ne_self _ _ (congrArg (·.outbox.items) (hsession.symm.trans hsame))
  | @forsake p hphase hreason hlook hsession hnext =>
    refine .inr ⟨p, ?_, hphase, hlook, hreason⟩
    rw [Ledger.forsaken, if_pos ⟨Phase.hand_of_isEnding hnext, hsession⟩, hphase]
    rfl
  | reserve _ hreserve hsession =>
    exact .inl (Ledger.forsaken_of_ne (hsession.trans_ne (Session.ne_of_reserve? hreserve)))

theorem Traffic.handover (h : Traffic env s w turn)
    (hheld : ∀ p ∈ w.phase.hand, p.qos ≠ .atMostOnce)
    (hcontrols : ∀ bytes, .control bytes ∈ s.outbox.items → isFirstPublish bytes = false)
    (hrepeats : ∀ id p, .publish id p ∈ w.phase.left → p.dup = true) : Handover s w turn := by
  cases h with
  | idle hitems hwindow hphase =>
    refine .keeps ?_ ?_ hwindow ?_
    · rw [Ledger.passed_of_same hwindow hitems, Ledger.forsaken_of_kept hphase.hand]
      rfl
    · rw [hphase.hand, Outbox.lasting, Outbox.lasting, hitems]
    · rw [hphase.begun]
      exact nofun
  | lookUp hphase hsession hnext =>
    refine handover_of_session_eq hsession ?_ ?_
    · rw [hphase, hnext]
      rfl
    · rw [hphase, hnext]
      exact nofun
  | stop hsession hhand _ hnext =>
    refine handover_of_session_eq hsession ?_ ?_
    · rw [hhand, Phase.hand_of_isEnding hnext]
    · rw [Phase.begun_of_isEnding hnext]
      exact nofun
  | @resend r left hphase hsession hstarts =>
    refine handover_of_session_eq hsession ?_ fun frame hframe =>
      hstarts.isFirstPublish_eq_false (fun m hm hdup => ?_) hframe
    · rw [hphase, hstarts.hand]
      rfl
    · cases r with
      | release id => cases hm
      | publish id p =>
        cases hm
        have hrepeated : p.dup = true := hrepeats id p (by rw [hphase]; exact List.mem_cons_self)
        exact absurd (hdup.symm.trans hrepeated) Bool.false_ne_true
  | control hphase hitems hsession hnext =>
    refine .keeps (Ledger.passed_control (by rw [hsession]; rfl) hphase hitems) ?_
      (by rw [hsession]; rfl) fun frame hframe => ?_
    · rw [lasting_of_taken hphase hitems hsession, hnext]
      rfl
    · rw [hnext] at hframe
      rw [Phase.eq_of_begun hframe]
      exact hcontrols _ (by rw [hitems]; exact List.mem_cons_self)
  | transient hphase hitems hsession hqos hstarts =>
    refine .keeps ?_ ?_ (by rw [hsession]; rfl) fun frame hframe =>
      hstarts.isFirstPublish_eq_false (fun m hm _ => ?_) hframe
    · rw [passed_of_taken hphase hitems hsession, if_neg fun h => h.1 hqos]
    · rw [lasting_of_taken hphase hitems hsession, hstarts.hand, Outgoing.lasting?, if_pos hqos]
      rfl
    · cases hm
      exact hqos
  | drop hphase hitems hsession hlimit hnext =>
    exact handover_of_drop hphase hitems hsession hlimit hnext
  | hold hphase hitems hsession hlimit hqos hnext =>
    refine .keeps ?_ ?_ (by rw [hsession]; rfl) (by rw [hphase, hnext]; exact nofun)
    · rw [passed_of_taken hphase hitems hsession,
        if_neg fun h => by rw [hlimit] at h; exact Bool.false_ne_true h.2]
    · rw [lasting_of_taken hphase hitems hsession, hnext, Outgoing.lasting?, if_neg hqos]
      rfl
  | @giveBack p _ hphase _ hsession hnext =>
    have hqos : p.qos ≠ .atMostOnce := hheld p (by rw [hphase]; exact List.mem_singleton_self p)
    have hitems : turn.session.outbox.items = .publish p :: s.outbox.items := by rw [hsession]; rfl
    refine .keeps ?_ ?_ (by rw [hsession]) (by rw [Phase.begun_of_isEnding hnext]; exact nofun)
    · have hmore : turn.session ≠ s := fun hsame =>
        List.cons_ne_self _ _ (hitems.symm.trans (by rw [hsame]))
      rw [Ledger.passed_reserving hphase, Ledger.forsaken_of_ne hmore, hsession, List.drop_length]
      rfl
    · rw [hphase, Phase.hand_of_isEnding hnext, lasting_of_items hitems, Outgoing.lasting?,
        if_neg hqos]
      rfl
  | @forsake p hphase _ _ hsession hnext =>
    refine .leaves (x := .lost p) ?_ rfl ?_ (by rw [hsession]) (Phase.begun_of_isEnding hnext)
    · rw [Ledger.passed_reserving hphase, Ledger.forsaken,
        if_pos ⟨Phase.hand_of_isEnding hnext, hsession⟩, hsession, List.drop_length, hphase]
      rfl
    · rw [hphase, Phase.hand_of_isEnding hnext, hsession]
      rfl
  | reserve hphase hreserve hsession hstarts =>
    exact handover_of_reserve hphase hreserve hsession hstarts

end Writer

namespace Tenancy

variable {t t' : Tenancy} {move : Move} {x : Tenant} {a : Ledger}

theorem Regular.handover (h : t.Regular) {env : Writer.Surroundings} {w : Writer}
    {turn : Writer.Turn} (hw : t.writer? = some w)
    (htraffic : Writer.Traffic env t.session w turn) : Handover t.session w turn := by
  have hheld := h.held
  have hrepeats := h.repeats
  rw [hand, hw] at hheld
  rw [left, hw] at hrepeats
  exact htraffic.handover hheld (fun bytes hmem => isFirstPublish_control (h.controls bytes hmem))
    hrepeats

/-- The record and the session agree. -/
structure Custody (t : Tenancy) (a : Ledger) : Prop where
  order : a.accepted = a.passages.map Passage.publication ++ (t.hand ++ t.session.outbox.lasting)
  sent : (a.passages.filterMap Passage.sending?).Perm (t.session.window.sendings ++ a.finished)
  firsts : WrittenOnce (a.passages.filterMap Passage.sending?) a.frames

namespace Custody

theorem fresh (clientId : String) (capacity : Nat) : Custody (fresh clientId capacity) {} :=
  ⟨rfl, .nil, .of_repeats _ nofun⟩

/-- A move that is not noted has to keep the messages where they are. -/
theorem of_same (h : Custody t a) (hhand : t'.hand = t.hand)
    (hlasting : t'.session.outbox.lasting = t.session.outbox.lasting)
    (hsendings : t'.session.window.sendings = t.session.window.sendings) : Custody t' a where
  order := by
    rw [hlasting, hhand]
    exact h.order
  sent := by
    rw [hsendings]
    exact h.sent
  firsts := h.firsts

theorem accept (h : Custody t a) (m : Message) :
    Custody { t with session := (t.session.offer m).1 } (a.accept t.session m) := by
  rcases t.session.offer_cases m with heq | heq | ⟨qos, heq⟩
  · rw [Ledger.accept, heq]
    exact h
  · rw [Ledger.accept, heq]
    exact h
  · rw [Ledger.accept, heq]
    refine ⟨?_, h.sent, h.firsts⟩
    simp only [Session.append_items, Session.append_lasting, List.getLast?_concat,
      Option.bind_some]
    rw [h.order]
    simp only [List.append_assoc]
    rfl

theorem finish (h : Custody t a) {p : InFlight → Bool} {window? : Option Window}
    (hremoves : t.session.window.Removes p window?) :
    Custody { t with session := (t.session.settle window?).1 } (a.finish t.session p) where
  order := by
    rw [Session.settle_outbox]
    exact h.order
  sent := by
    have hsettle := Session.perm_settle hremoves
    refine h.sent.trans ((hsettle.append_right _).trans ?_)
    simp only [Ledger.finish, List.append_assoc]
    exact List.perm_append_comm.append_left _
  firsts := h.firsts

theorem answer (h : Custody t a) (hx : t.tenant = some x) (p : Packet) :
    Custody (t.answer x p) a := by
  rcases t.answer_cases x p with ⟨reason, heq⟩ | ⟨bytes, hbytes, heq⟩
  · rw [heq]
    exact h.of_same (hand_congr (writer?_congr hx rfl rfl)) rfl rfl
  · rw [heq]
    refine h.of_same (hand_congr (writer?_congr hx rfl rfl)) ?_ rfl
    rw [Session.append_lasting]
    exact List.append_nil _

theorem receive (h : Custody t a) (hx : t.tenant = some x) (id : UInt16) :
    Custody (t.receive x id) a := by
  rcases t.receive_cases x id with ⟨-, heq⟩ | ⟨window, hwindow, heq⟩
  · rw [heq]
    exact h
  · have hsame : Custody { t with session := { t.session with window } } a :=
      h.of_same rfl rfl (Window.sendings_received hwindow)
    rw [heq]
    exact hsame.answer hx _

variable {env : Writer.Surroundings} {w : Writer} {turn : Writer.Turn}

/-- A step of the writer keeps the agreement if what it is noted for is what it does. -/
theorem of_passed (h : Custody t a) {passages : List Passage} {frames : List Bytes}
    (hw : t.writer? = some w) (hw' : t'.writer? = some turn.writer)
    (horder : w.phase.hand ++ t.session.outbox.lasting =
      passages.map Passage.publication ++ (turn.writer.phase.hand ++ t'.session.outbox.lasting))
    (hsent : t'.session.window.sendings =
      t.session.window.sendings ++ passages.filterMap Passage.sending?)
    (hfirsts : WrittenOnce (passages.filterMap Passage.sending?) frames) :
    Custody t' { a with passages := a.passages ++ passages, frames := a.frames ++ frames } where
  order := by
    have hold := h.order
    rw [hand, hw, Option.map_some, Option.getD_some, horder] at hold
    rw [hold, hand, hw', List.map_append, List.append_assoc]
    rfl
  sent := by
    rw [List.filterMap_append, hsent, List.append_assoc]
    refine (h.sent.append_right _).trans ?_
    rw [List.append_assoc]
    exact List.perm_append_comm.append_left _
  firsts := by
    rw [List.filterMap_append]
    exact h.firsts.append hfirsts

theorem write (h : Custody t a) (hregular : t.Regular) (hw : t.writer? = some w)
    (hw' : t'.writer? = some turn.writer)
    (hsession' : t'.session = turn.session) (htraffic : Writer.Traffic env t.session w turn) :
    Custody t'
      { a with
        passages := a.passages ++ Ledger.passed w turn.writer t.session turn.session
        frames := a.frames ++ (w.phase.begun turn.writer.phase).toList } := by
  cases hregular.handover hw htraffic with
  | keeps hpassed hplaces hwindow hframe =>
    rw [hpassed]
    refine h.of_passed hw hw' ?_ ?_ (.of_repeats _ ?_)
    · rw [hsession']
      exact hplaces
    · rw [hsession', hwindow]
      exact (List.append_nil _).symm
    · intro frame hmem
      exact hframe frame (Option.mem_toList.1 hmem)
  | leaves hpassed hunsent hplaces hwindow hframe =>
    rw [hpassed, hframe]
    refine h.of_passed hw hw' ?_ ?_ (.of_repeats _ fun _ hmem => absurd hmem List.not_mem_nil)
    · rw [hsession']
      exact hplaces
    · rw [hsession', hwindow, List.filterMap_cons_none hunsent]
      exact (List.append_nil _).symm
  | @sends x hpassed hplaces hwindow hframe =>
    rw [hpassed]
    refine h.of_passed hw hw' ?_ ?_ ?_
    · rw [hsession']
      exact hplaces
    · rw [hsession']
      exact hwindow
    · cases hbegun : w.phase.begun turn.writer.phase with
      | none => exact .of_repeats _ fun _ hmem => absurd hmem List.not_mem_nil
      | some frame => exact .of_encode (hframe frame hbegun)

theorem step (h : Custody t a) (hregular : t.Regular) (hstep : t.step move = some t') :
    Custody t' (Ledger.note t move t' a) := by
  cases goes_of_step hstep with
  | arrive hfree =>
    have hwriter : t.writer? = none := by rw [writer?, hfree]; rfl
    exact h.of_same (hand_congr hwriter.symm) rfl rfl
  | @activate _ x hx hwriter =>
    have hnone : t.writer? = none := (writer?_of_tenant hx).trans hwriter
    refine h.of_same ?_ rfl rfl
    rw [hand, hand, hnone]
    rfl
  | @close reason =>
    exact h.of_same (hand_congr (t.writer?_close reason)) rfl rfl
  | offer => exact h.accept _
  | answer hx => exact h.answer hx _
  | ack => exact h.finish (t.session.window.removes_ack? _)
  | receive hx => exact h.receive hx _
  | abandon => exact h.finish (t.session.window.removes_abandon? _)
  | complete => exact h.finish (t.session.window.removes_complete? _)
  | adjust => exact h.of_same rfl rfl rfl
  | @write _ _ _ x w turn hx hwriter hacts =>
    have hw : t.writer? = some w := (writer?_of_tenant hx).trans hwriter
    have hw' : writer? { session := turn.session, tenant := some (x.after turn) } =
        some turn.writer := x.after_writer turn
    have hnote := h.write hregular hw hw' rfl (Writer.traffic_of_acts hacts)
    simp only [Ledger.note, hw, hw']
    exact hnote
  | @leave kept x hx hstopped =>
    refine h.of_same (hand_of_stopped hx hstopped).symm ?_ rfl
    cases kept with
    | false => rfl
    | true => exact t.session.outbox.lasting_discardTransient

end Custody

theorem custody_of_run {clientId : String} {capacity : Nat} {moves : List Move}
    (h : run Ledger.note moves (fresh clientId capacity, {}) = some (t, a)) : Custody t a :=
  (run_induction (I := fun x => x.1.Regular ∧ Custody x.1 x.2)
    (fun _ _ _ _ hstep ⟨hregular, hcustody⟩ =>
      ⟨hregular.step hstep, hcustody.step hregular hstep⟩) h
    ⟨.fresh clientId capacity, .fresh clientId capacity⟩).2

theorem perm_passages (passages : List Passage) :
    (passages.map Passage.publication).Perm
      ((passages.filterMap Passage.sending?).map Sending.publication ++
        (passages.filterMap Passage.dropped? ++ passages.filterMap Passage.lost?)) := by
  induction passages with
  | nil => exact .nil
  | cons passage passages ih =>
    cases passage with
    | sent s => exact ih.cons _
    | dropped p => exact (ih.cons p).trans List.perm_middle.symm
    | lost p =>
      refine (ih.cons p).trans ?_
      simp only [← List.append_assoc]
      exact List.perm_middle.symm

/-! ### Messages that are lost -/

/-- Does the writer see a request to close only outside the wait it is in? -/
def Move.isLate : Move → Bool
  | .write _ _ .closeLate => true
  | _ => false

/-- A message is lost from the hand of a writer whose connection is asked to close. -/
theorem lost_of_step (hstep : t.step move = some t') :
    (Ledger.note t move t' a).lost = a.lost ∨
      ∃ p x now room, (Ledger.note t move t' a).lost = a.lost ++ [p] ∧
        move = .write now room .closeLate ∧ t.hand = [p] ∧ t.tenant = some x ∧
        x.reason.isSome = true := by
  cases goes_of_step hstep with
  | @write now room look x w turn hx hwriter hacts =>
    have hw : t.writer? = some w := (writer?_of_tenant hx).trans hwriter
    have hw' : writer? { session := turn.session, tenant := some (x.after turn) } =
        some turn.writer := x.after_writer turn
    simp only [Ledger.note, hw, hw', Ledger.lost, List.filterMap_append, Ledger.lost_passed]
    rcases (Writer.traffic_of_acts hacts).forsaken with hnone | ⟨p, hp, hphase, hlook, hreason⟩
    · rw [hnone, List.append_nil]
      exact .inl rfl
    · cases hlook
      refine .inr ⟨p, x, now, room, by rw [hp], rfl, ?_, hx, hreason⟩
      rw [hand, hw, Option.map_some, hphase]
      rfl
  | @offer m =>
    refine .inl ?_
    rcases t.session.offer_cases m with heq | heq | ⟨qos, heq⟩ <;>
      simp only [Ledger.note, Ledger.accept, heq, Ledger.lost]
  | _ => exact .inl rfl

/-- Each message that is lost is lost in a step of its own, in which the writer sees the request to
close outside its wait. -/
theorem lost_of_run {x₀ : Tenancy} {moves : List Move}
    (h : run Ledger.note moves (x₀, {}) = some (t, a)) :
    a.lost.length ≤ moves.countP Move.isLate ∧
      ∀ p ∈ a.lost, ∃ before now room after t₁ a₁ x,
        moves = before ++ .write now room .closeLate :: after ∧
        run Ledger.note before (x₀, {}) = some (t₁, a₁) ∧ t₁.hand = [p] ∧
        t₁.tenant = some x ∧ x.reason.isSome = true := by
  induction moves using List.reverseRecOn generalizing t a with
  | nil =>
    cases h
    exact ⟨Nat.le_refl _, nofun⟩
  | append_singleton moves move ih =>
    rw [run_append] at h
    obtain ⟨⟨t₁, a₁⟩, hrun, hlast⟩ := Option.bind_eq_some_iff.1 h
    obtain ⟨t', hstep, hlast⟩ := Option.bind_eq_some_iff.1 hlast
    cases hlast
    obtain ⟨hcount, hwhere⟩ := ih hrun
    have hbefore : ∀ p ∈ a₁.lost, ∃ before now room after t₁ a₁ x,
        moves ++ [move] = before ++ .write now room .closeLate :: after ∧
        run Ledger.note before (x₀, {}) = some (t₁, a₁) ∧ t₁.hand = [p] ∧
        t₁.tenant = some x ∧ x.reason.isSome = true := by
      intro p hp
      obtain ⟨before, now, room, after, t₂, a₂, x, rfl, hlost⟩ := hwhere p hp
      exact ⟨before, now, room, after ++ [move], t₂, a₂, x,
        by rw [List.append_assoc, List.cons_append], hlost⟩
    rw [List.countP_append]
    rcases lost_of_step (a := a₁) hstep with
      hsame | ⟨p, x, now, room, hmore, rfl, hhand, hx, hreason⟩
    · rw [hsame]
      exact ⟨Nat.le_add_right_of_le hcount, hbefore⟩
    · rw [hmore]
      refine ⟨?_, fun q hq => ?_⟩
      · rw [List.length_append]
        exact Nat.add_le_add_right hcount 1
      · rcases List.mem_append.1 hq with hold | hnew
        · exact hbefore q hold
        · obtain rfl := List.mem_singleton.1 hnew
          exact ⟨moves, now, room, [], t₁, a₁, x, rfl, hrun, hhand, hx, hreason⟩

/-- Every message above QoS 0 that the outbox took in is accounted for once, whatever the session's
connections and their writers have done. In the order they came, the messages have gone on, are in
the writer's hand or wait in the outbox. Those that were sent are in the window or finished, and
none is begun twice as a PUBLISH that is no repetition. The others have been dropped as too large
for the client, or lost: a writer that waits for a slot loses its message if it sees a request to
close only outside the wait. -/
theorem accepted_accounted {clientId : String} {capacity : Nat} {moves : List Move}
    (h : run Ledger.note moves (fresh clientId capacity, {}) = some (t, a)) :
    a.accepted = a.passages.map Passage.publication ++ (t.hand ++ t.session.outbox.lasting) ∧
      (a.passages.filterMap Passage.sending?).Perm (t.session.window.sendings ++ a.finished) ∧
      a.accepted.Perm
        (t.session.outbox.lasting ++ t.hand ++ t.session.window.sendings.map Sending.publication ++
          (a.finished.map Sending.publication ++
            (a.passages.filterMap Passage.dropped? ++ a.lost))) ∧
      WrittenOnce (a.passages.filterMap Passage.sending?) a.frames ∧
      a.lost.length ≤ moves.countP Move.isLate ∧
      ∀ p ∈ a.lost, ∃ before now room after t₁ a₁ x,
        moves = before ++ .write now room .closeLate :: after ∧
        run Ledger.note before (fresh clientId capacity, {}) = some (t₁, a₁) ∧ t₁.hand = [p] ∧
        t₁.tenant = some x ∧ x.reason.isSome = true := by
  have hcustody := custody_of_run h
  refine ⟨hcustody.order, hcustody.sent, ?_, hcustody.firsts, lost_of_run h⟩
  have hsent := hcustody.sent.map Sending.publication
  rw [List.map_append] at hsent
  rw [hcustody.order]
  have hpassages := (perm_passages a.passages).trans (hsent.append_right _)
  refine (hpassages.append_right _).trans (List.perm_append_comm.trans ?_)
  simp only [List.append_assoc]
  exact List.perm_append_comm_assoc ..

/-- A message is sent, the next one is given back as the connection closes. -/
def givenBackMoves : List Move :=
  [subscribing .atLeastOnce, .offer (letter 49 .atLeastOnce), .offer (letter 50 .atLeastOnce),
    .arrive narrowLink, .activate 16384] ++ writing 8 ++ [.close .takenOver] ++ writing 3 ++
    [.leave true]

theorem accepted_accounted_givenBack :
    ∃ t a, run Ledger.note givenBackMoves (fresh "a" 1000, {}) = some (t, a) ∧
      t.session.window.sendings = [⟨1, .ofMessage (letter 49 .atLeastOnce) .atLeastOnce⟩] ∧
      t.session.outbox.lasting = [.ofMessage (letter 50 .atLeastOnce) .atLeastOnce] ∧
      a.accepted = a.passages.map Passage.publication ++ (t.hand ++ t.session.outbox.lasting) := by
  have hrun : (run Ledger.note givenBackMoves (fresh "a" 1000, {})).map
      (fun x => (x.1.session.window.sendings, x.1.session.outbox.lasting)) =
        some ([⟨1, .ofMessage (letter 49 .atLeastOnce) .atLeastOnce⟩],
          [.ofMessage (letter 50 .atLeastOnce) .atLeastOnce]) := by
    decide +kernel
  obtain ⟨⟨t, a⟩, hrun, hplaces⟩ := Option.map_eq_some_iff.1 hrun
  obtain ⟨hwindow, houtbox⟩ := Prod.mk.inj hplaces
  exact ⟨t, a, hrun, hwindow, houtbox, (accepted_accounted hrun).1⟩

/-- The same, but the connection is closed after the writer has looked for that in its wait and
before it looks around everything it does. -/
def forsakenMoves : List Move :=
  [subscribing .atLeastOnce, .offer (letter 49 .atLeastOnce), .offer (letter 50 .atLeastOnce),
    .arrive narrowLink, .activate 16384] ++ writing 8 ++
    [.close .takenOver, .write 0 (some 64) .closeLate] ++ writing 2 ++ [.leave true]

/-- The writer's hand, the outbox and the window do not account for every message that is neither
finished nor too large for the client. -/
theorem not_accounted_of_forsaken :
    ¬ ∀ (clientId : String) (capacity : Nat) (moves : List Move) (t : Tenancy) (a : Ledger),
      run Ledger.note moves (fresh clientId capacity, {}) = some (t, a) →
        a.accepted.Perm (t.session.outbox.lasting ++ t.hand ++
          t.session.window.sendings.map Sending.publication ++
            (a.finished.map Sending.publication ++ a.passages.filterMap Passage.dropped?)) := by
  intro haccounted
  have hrun : (run Ledger.note forsakenMoves (fresh "a" 1000, {})).map (fun x =>
      (x.2.accepted.length, x.1.session.outbox.lasting ++ x.1.hand ++
          x.1.session.window.sendings.map Sending.publication ++
            (x.2.finished.map Sending.publication ++ x.2.passages.filterMap Passage.dropped?))) =
        some (2, [.ofMessage (letter 49 .atLeastOnce) .atLeastOnce]) := by
    decide +kernel
  obtain ⟨⟨t, a⟩, hrun, hplaces⟩ := Option.map_eq_some_iff.1 hrun
  obtain ⟨htwo, hone⟩ := Prod.mk.inj hplaces
  have hlengths := (haccounted _ _ _ t a hrun).length_eq
  rw [htwo, hone] at hlengths
  exact absurd hlengths (by decide)

end Tenancy

end MqttBroker
