import MqttBroker.Proofs.Session.InFlight
/-!
The in-flight window against its history: what was put into it, and what the client replied since,
say which messages are in flight and how far each of them has come.
-/

namespace MqttBroker.Window

/-- What a client can say about a message in flight. -/
inductive Reply where
  /-- PUBACK. -/
  | ack
  /-- PUBREC. -/
  | received
  /-- PUBCOMP. -/
  | complete
  /-- A PUBACK or PUBREC that refuses the message. -/
  | abandon
deriving DecidableEq

def reply? (w : Window) (id : UInt16) : Reply → Option Window
  | .ack => w.ack? id
  | .received => w.received? id
  | .complete => w.complete? id
  | .abandon => w.abandon? id

/-- The window after a reply, and whether the reply was accepted. -/
def reply (w : Window) (id : UInt16) (r : Reply) : Window × Bool :=
  ((w.reply? id r).getD w, (w.reply? id r).isSome)

theorem reply_of_none {w : Window} {id : UInt16} {r : Reply} (h : w.reply? id r = none) :
    w.reply id r = (w, false) := by
  rw [reply, h]
  rfl

theorem reply_of_some {w w' : Window} {id : UInt16} {r : Reply} (h : w.reply? id r = some w') :
    w.reply id r = (w', true) := by
  rw [reply, h]
  rfl

inductive Call where
  | insert (p : Publication)
  | reply (id : UInt16) (r : Reply)

/-- A call and its answer. -/
inductive Record where
  | inserted (id : UInt16) (p : Publication)
  | replied (id : UInt16) (r : Reply) (accepted : Bool)
deriving DecidableEq

/-- A window and the calls it comes from, the first one first. -/
structure Log where
  window : Window := {}
  past : List Record := []

def call (w : Window) : Call → Window × Record
  | .insert p => ((w.insert p).1, .inserted (w.insert p).2 p)
  | .reply id r => ((w.reply id r).1, .replied id r (w.reply id r).2)

def Log.next (log : Log) (c : Call) : Log where
  window := (log.window.call c).1
  past := log.past ++ [(log.window.call c).2]

def run (calls : List Call) : Log := calls.foldl Log.next {}

/-- Only messages above QoS 0 are put in, and only while an identifier is left. -/
def permits (w : Window) : Call → Bool
  | .insert p => p.qos ≠ .atMostOnce && w.size < 65535
  | .reply .. => true

/-- Is every call permitted when it is made? -/
def permitted (log : Log) : List Call → Bool
  | [] => true
  | c :: calls => log.window.permits c && permitted (log.next c) calls

/-! ### What a history says -/

namespace Record

/-- Is this the end of a message with the identifier? -/
def ends (id : UInt16) : Record → Bool
  | .inserted .. => false
  | .replied id' r accepted => id' = id && r ≠ .received && accepted

def receives (id : UInt16) : Record → Bool
  | .inserted .. => false
  | .replied id' r accepted => id' = id && r = .received && accepted

/-- The message that comes in. -/
def entry? : Record → Option InFlight
  | .inserted id p => some { packetId := id, publication := p }
  | .replied .. => none

/-- What becomes of a message that is in flight already. -/
def revise (record : Record) (e : InFlight) : Option InFlight :=
  if record.ends e.packetId then none
  else if record.receives e.packetId then some (release e)
  else some e

end Record

/-- The messages that were put in and have not ended since. Those that the client has received since
are released. -/
def inFlight : List Record → List InFlight
  | [] => []
  | .inserted id p :: later =>
    if later.any (·.ends id) then inFlight later
    else
      { packetId := id
        stage := if later.any (·.receives id) then .released else .sent
        publication := p } :: inFlight later
  | .replied .. :: later => inFlight later

theorem inFlight_append (past : List Record) (record : Record) :
    inFlight (past ++ [record]) =
      (inFlight past).filterMap record.revise ++ record.entry?.toList := by
  induction past with
  | nil => cases record <;> rfl
  | cons first past ih =>
    cases first with
    | replied => exact ih
    | inserted id p =>
      simp only [List.cons_append, inFlight, List.any_append, List.any_cons, List.any_nil,
        Bool.or_false, ih]
      by_cases hended : past.any (·.ends id) = true
      · simp only [hended, Bool.true_or, if_true]
      by_cases hends : record.ends id = true
      · simp only [hended, hends, Record.revise, Bool.or_true, if_true, if_false,
          List.filterMap_cons, Bool.false_eq_true]
      by_cases hreceives : record.receives id = true
      · simp [hended, hends, hreceives, Record.revise, release]
      · simp [hended, hends, hreceives, Record.revise]

theorem inserted_of_mem_inFlight {past : List Record} {e : InFlight} (he : e ∈ inFlight past) :
    .inserted e.packetId e.publication ∈ past := by
  induction past with
  | nil => cases he
  | cons first past ih =>
    cases first with
    | replied => exact List.mem_cons_of_mem _ (ih he)
    | inserted id p =>
      rw [inFlight] at he
      split at he
      · exact List.mem_cons_of_mem _ (ih he)
      rcases List.mem_cons.1 he with rfl | he
      · exact List.mem_cons_self
      · exact List.mem_cons_of_mem _ (ih he)

/-- Once a message was received, it stays released as long as its identifier is not given to
another one. -/
theorem released_of_mem_inFlight {id : UInt16} {after : List Record}
    (hafter : ∀ p, .inserted id p ∉ after) (before : List Record) {e : InFlight}
    (he : e ∈ inFlight (before ++ .replied id .received true :: after)) (hid : e.packetId = id) :
    e.stage = .released := by
  induction before with
  | nil =>
    replace he : e ∈ inFlight after := he
    exact absurd (hid ▸ inserted_of_mem_inFlight he) (hafter e.publication)
  | cons first before ih =>
    cases first with
    | replied => exact ih he
    | inserted id' p =>
      rw [List.cons_append, inFlight] at he
      split at he
      · exact ih he
      rcases List.mem_cons.1 he with rfl | he
      · replace hid : id' = id := hid
        subst hid
        simp [Record.receives]
      · exact ih he

/-! ### What a window does -/

/-- The messages that a reply is about, among those with its identifier. -/
def Reply.Suits : Reply → InFlight → Prop
  | .ack, e => e.publication.qos = .atLeastOnce
  | .received, e => e.publication.qos = .exactlyOnce
  | .complete, e => e.publication.qos = .exactlyOnce ∧ e.stage = .released
  | .abandon, _ => True

/-- What is left of the message. -/
def Reply.leaves : Reply → InFlight → List InFlight
  | .received, e => [release e]
  | _, _ => []

theorem has_eq_true_iff {w : Window} {id : UInt16} {qos : QoS} {stage : Stage} :
    w.has id qos stage = true ↔
      ∃ e ∈ w.entries, e.packetId = id ∧ e.publication.qos = qos ∧ e.stage = stage := by
  simp only [has, List.any_eq_true, Bool.and_eq_true, decide_eq_true_eq, and_assoc]

theorem isSome_ite {α : Type} {c : Prop} [Decidable c] (a : α) :
    (if c then some a else none).isSome = true ↔ c := by
  split <;> simp_all

theorem revise_of_ne {id : UInt16} {r : Reply} {accepted : Bool} {e : InFlight}
    (h : e.packetId ≠ id) : (Record.replied id r accepted).revise e = some e := by
  simp only [Record.revise, Record.ends, Record.receives, decide_eq_false h.symm, Bool.false_and,
    Bool.false_eq_true, if_false]

theorem filterMap_revise_self (r : Reply) (e : InFlight) (entries : List InFlight) :
    (e :: entries).filterMap (Record.replied e.packetId r true).revise =
      r.leaves e ++ entries.filterMap (Record.replied e.packetId r true).revise := by
  cases r <;> simp [Record.revise, Record.ends, Record.receives, Reply.leaves]

theorem filterMap_revise_of_ne {entries : List InFlight} {id : UInt16} {r : Reply}
    {accepted : Bool} (h : ∀ e ∈ entries, e.packetId ≠ id) :
    entries.filterMap (Record.replied id r accepted).revise = entries := by
  rw [List.filterMap_congr fun e he => revise_of_ne (h e he), List.filterMap_some]

theorem filterMap_revise_refused (entries : List InFlight) (id : UInt16) (r : Reply) :
    entries.filterMap (Record.replied id r false).revise = entries := by
  have hrevise : (Record.replied id r false).revise = some := by
    funext e
    simp [Record.revise, Record.ends, Record.receives]
  rw [hrevise, List.filterMap_some]

namespace Sound

variable {w w' : Window} {id : UInt16} {r : Reply}

theorem sent_of_atLeastOnce (h : w.Sound) {e : InFlight} (he : e ∈ w.entries)
    (hqos : e.publication.qos = .atLeastOnce) : e.stage = .sent := by
  have hawaits := h.awaiting e he
  unfold InFlight.awaits at hawaits
  rw [hqos] at hawaits
  cases hstage : e.stage with
  | sent => rfl
  | released => simp [hstage] at hawaits

/-- A reply is accepted just if there is a message that it is about. -/
theorem isSome_reply?_iff (h : w.Sound) :
    (w.reply? id r).isSome = true ↔ ∃ e ∈ w.entries, e.packetId = id ∧ r.Suits e := by
  cases r with
  | ack =>
    rw [reply?, ack?, isSome_ite, has_eq_true_iff]
    constructor
    · rintro ⟨e, he, hid, hqos, -⟩
      exact ⟨e, he, hid, hqos⟩
    · rintro ⟨e, he, hid, hqos⟩
      exact ⟨e, he, hid, hqos, h.sent_of_atLeastOnce he hqos⟩
  | received =>
    have hsome : (w.received? id).isSome = true ↔
        w.has id .exactlyOnce .released = true ∨ w.has id .exactlyOnce .sent = true := by
      unfold received?
      split <;> simp_all
    rw [reply?, hsome, has_eq_true_iff, has_eq_true_iff]
    constructor
    · rintro (⟨e, he, hid, hqos, -⟩ | ⟨e, he, hid, hqos, -⟩) <;> exact ⟨e, he, hid, hqos⟩
    · rintro ⟨e, he, hid, hqos⟩
      cases hstage : e.stage with
      | sent => exact .inr ⟨e, he, hid, hqos, hstage⟩
      | released => exact .inl ⟨e, he, hid, hqos, hstage⟩
  | complete =>
    rw [reply?, complete?, isSome_ite, has_eq_true_iff]
    rfl
  | abandon =>
    rw [reply?, abandon?, isSome_ite, holds]
    simp only [List.any_eq_true, decide_eq_true_eq, Reply.Suits, and_true]

theorem split_of_removes {p : InFlight → Bool} (h : w.Removes p (some w'))
    (hid : ∀ e, p e = true → e.packetId = id) (hsome : ∃ e ∈ w.entries, p e = true) :
    ∃ front e back, w.entries = front ++ e :: back ∧ e.packetId = id ∧
      w'.entries = front ++ back := by
  obtain ⟨e, he, hpe⟩ := hsome
  obtain ⟨first, front, back, -, hfirst, hentries, herase⟩ := List.exists_of_eraseP he hpe
  rcases h with ⟨hnone, -⟩ | hw'
  · cases hnone
  · cases hw'
    exact ⟨front, first, back, hentries, hid first hfirst, herase⟩

/-- An accepted reply leaves all other messages as they are and where they are. -/
theorem split_of_reply? (h : w.Sound) (hw' : w.reply? id r = some w') :
    ∃ front e back, w.entries = front ++ e :: back ∧ e.packetId = id ∧
      w'.entries = front ++ (r.leaves e ++ back) := by
  obtain ⟨e, he, hid, hsuits⟩ := h.isSome_reply?_iff.1 (Option.isSome_of_eq_some hw')
  cases r with
  | ack =>
    have hremoves := w.removes_ack? id
    rw [show w.ack? id = some w' from hw'] at hremoves
    refine split_of_removes hremoves (fun e hawaits => ?_) ⟨e, he, ?_⟩
    · exact (InFlight.awaits_eq_pubAck.1 (of_decide_eq_true hawaits)).1
    · exact decide_eq_true (InFlight.awaits_eq_pubAck.2
        ⟨hid, hsuits, h.sent_of_atLeastOnce he hsuits⟩)
  | received =>
    rcases received?_eq_some hw' with ⟨rfl, hreleased⟩ | hreleases
    · obtain ⟨front, back, hentries⟩ := List.append_of_mem he
      refine ⟨front, e, back, hentries, hid, ?_⟩
      obtain ⟨e', he', hid', -, hstage⟩ := has_eq_true_iff.1 hreleased
      cases h.eq_of_packetId he he' (hid.trans hid'.symm)
      have hrelease : release e = e := by
        rw [release, ← hstage]
      rw [hentries, Reply.leaves, hrelease]
      rfl
    · cases hreleases with
      | @release front back e hentries hawaits =>
        exact ⟨front, e, back, hentries, (InFlight.awaits_eq_pubRec.1 hawaits).1, rfl⟩
  | complete =>
    have hremoves := w.removes_complete? id
    rw [show w.complete? id = some w' from hw'] at hremoves
    refine split_of_removes hremoves (fun e hawaits => ?_) ⟨e, he, ?_⟩
    · exact (InFlight.awaits_eq_pubComp.1 (of_decide_eq_true hawaits)).1
    · exact decide_eq_true (InFlight.awaits_eq_pubComp.2 ⟨hid, hsuits⟩)
  | abandon =>
    have hremoves := w.removes_abandon? id
    rw [show w.abandon? id = some w' from hw'] at hremoves
    exact split_of_removes hremoves (fun e => of_decide_eq_true) ⟨e, he, decide_eq_true hid⟩

theorem entries_of_reply? (h : w.Sound) (hw' : w.reply? id r = some w') :
    w'.entries = w.entries.filterMap (Record.replied id r true).revise := by
  obtain ⟨front, e, back, hentries, rfl, hentries'⟩ := h.split_of_reply? hw'
  have hothers := h.ne_of_split hentries
  rw [hentries', hentries, List.filterMap_append,
    filterMap_revise_of_ne fun e' he' => hothers e' (List.mem_append_left _ he'),
    filterMap_revise_self,
    filterMap_revise_of_ne fun e' he' => hothers e' (List.mem_append_right _ he')]

theorem reply? (h : w.Sound) (hw' : w.reply? id r = some w') : w'.Sound := by
  cases r with
  | ack => exact h.of_removes (w.removes_ack? id) hw'
  | received => exact h.received hw'
  | complete => exact h.of_removes (w.removes_complete? id) hw'
  | abandon => exact h.of_removes (w.removes_abandon? id) hw'

end Sound

/-! ### Runs -/

/-- What is in flight is what the history says. -/
structure Log.Faithful (log : Log) : Prop where
  sound : log.window.Sound
  entries : log.window.entries = inFlight log.past

theorem Log.Faithful.next {log : Log} (h : log.Faithful) {c : Call}
    (hc : log.window.permits c = true) : (log.next c).Faithful := by
  cases c with
  | insert p =>
    simp only [permits, Bool.and_eq_true, decide_eq_true_eq] at hc
    refine ⟨h.sound.insert hc.2 hc.1, ?_⟩
    have hrevise : (Record.inserted (log.window.insert p).2 p).revise = some := rfl
    change _ = inFlight (log.past ++ [.inserted (log.window.insert p).2 p])
    rw [inFlight_append, hrevise, List.filterMap_some, ← h.entries]
    rfl
  | reply id r =>
    change Faithful ⟨(log.window.reply id r).1, log.past ++ [.replied id r (log.window.reply id r).2]⟩
    have hentries : inFlight (log.past ++ [.replied id r (log.window.reply id r).2]) =
        log.window.entries.filterMap (Record.replied id r (log.window.reply id r).2).revise := by
      rw [inFlight_append, ← h.entries]
      exact List.append_nil _
    cases hreply : log.window.reply? id r with
    | none =>
      rw [reply_of_none hreply] at hentries ⊢
      exact ⟨h.sound, (hentries.trans (filterMap_revise_refused _ _ _)).symm⟩
    | some w =>
      rw [reply_of_some hreply] at hentries ⊢
      exact ⟨h.sound.reply? hreply, (h.sound.entries_of_reply? hreply).trans hentries.symm⟩

theorem Log.Faithful.foldl {log : Log} (h : log.Faithful) {calls : List Call}
    (hcalls : permitted log calls = true) : (calls.foldl Log.next log).Faithful := by
  induction calls generalizing log with
  | nil => exact h
  | cons c calls ih =>
    rw [permitted, Bool.and_eq_true] at hcalls
    exact ih (h.next hcalls.1) hcalls.2

theorem Log.Faithful.run {calls : List Call} (h : permitted {} calls = true) :
    (run calls).Faithful :=
  Log.Faithful.foldl ⟨.empty, rfl⟩ h

/-- The acknowledgement protocol, for a window with the given history: what each call answers and
does is determined by the messages that are in flight. -/
structure KeepsProtocol (w : Window) (past : List Record) : Prop where
  /-- The messages in flight are in the order they were put in. -/
  entries : w.entries = inFlight past
  /-- A reply is accepted just if there is a message in flight that it is about. -/
  accepted (id : UInt16) (r : Reply) :
    (w.reply id r).2 = true ↔ ∃ e ∈ inFlight past, e.packetId = id ∧ r.Suits e
  refused (id : UInt16) (r : Reply) (hrefused : (w.reply id r).2 = false) :
    (w.reply id r).1 = w
  /-- An accepted reply takes that message out, or leaves it released. All others stay as they are
  and in their order. -/
  replied (id : UInt16) (r : Reply) (haccepted : (w.reply id r).2 = true) :
    ∃ front e back, w.entries = front ++ e :: back ∧ e.packetId = id ∧ r.Suits e ∧
      (w.reply id r).1.entries = front ++ (r.leaves e ++ back)
  /-- A message comes in behind the others, under an identifier that no other one has. -/
  inserted (p : Publication) (hp : w.permits (.insert p) = true) :
    (w.insert p).2 ≠ 0 ∧ (∀ e ∈ inFlight past, e.packetId ≠ (w.insert p).2) ∧
      (w.insert p).1.entries = w.entries ++ [{ packetId := (w.insert p).2, publication := p }]
  /-- Everything in flight is sent again, in the order it was put in. -/
  redelivery : w.redelivery = (inFlight past).map fun e =>
    if e.stage = .released then .release e.packetId
    else .publish e.packetId { e.publication with dup := true }
  /-- What the client has received is not published to it again. -/
  settled (id : UInt16) (before after : List Record)
    (hpast : past = before ++ .replied id .received true :: after)
    (hafter : ∀ p, .inserted id p ∉ after) (p : Publication) : .publish id p ∉ w.redelivery

/-- For every sequence of permitted calls, from the empty window on. -/
theorem keepsProtocol_of_permitted {calls : List Call} (h : permitted {} calls = true) :
    KeepsProtocol (run calls).window (run calls).past := by
  obtain ⟨hsound, hentries⟩ := Log.Faithful.run h
  generalize (run calls).window = w, (run calls).past = past at hsound hentries
  have haccepted : ∀ id r, (w.reply id r).2 = true ↔
      ∃ e ∈ inFlight past, e.packetId = id ∧ r.Suits e := by
    intro id r
    rw [← hentries]
    exact hsound.isSome_reply?_iff
  refine ⟨hentries, haccepted, ?refused, ?replied, ?inserted, ?redelivery, ?settled⟩
  case refused =>
    intro id r hrefused
    have hnone : w.reply? id r = none := by
      rw [← Option.isNone_iff_eq_none, ← Option.not_isSome]
      exact congrArg not hrefused
    rw [reply_of_none hnone]
  case replied =>
    intro id r hreply
    obtain ⟨e, he, hid, hsuits⟩ := hsound.isSome_reply?_iff.1 hreply
    obtain ⟨w', hw'⟩ := Option.isSome_iff_exists.1 hreply
    obtain ⟨front, e', back, hsplit, hid', hafter⟩ := hsound.split_of_reply? hw'
    obtain rfl := hsound.eq_of_packetId he (hsplit ▸ by simp) (hid.trans hid'.symm)
    rw [reply_of_some hw']
    exact ⟨front, e, back, hsplit, hid, hsuits, hafter⟩
  case inserted =>
    intro p hp
    simp only [permits, Bool.and_eq_true, decide_eq_true_eq] at hp
    refine ⟨freshId_ne_zero hsound.next, fun e he heq => ?_, rfl⟩
    have hfree := holds_freshId hsound.next hp.2
    have htaken : w.holds w.freshId = true :=
      List.any_eq_true.2 ⟨e, hentries ▸ he, decide_eq_true heq⟩
    exact Bool.false_ne_true (hfree.symm.trans htaken)
  case redelivery =>
    rw [redelivery, hentries]
    refine List.map_congr_left fun e _ => ?_
    cases e.stage <;> rfl
  case settled =>
    rintro id before after rfl hafter p hp
    obtain ⟨e, he, heq⟩ := List.mem_map.1 hp
    rw [hentries] at he
    cases hstage : e.stage with
    | sent =>
      rw [hstage] at heq
      have hid : e.packetId = id := by
        injection heq
      cases hstage.symm.trans (released_of_mem_inFlight hafter before he hid)
    | released =>
      rw [hstage] at heq
      cases heq

/-- Two messages in flight, of which the first is received: it is released, the second one is sent
again. -/
theorem keepsProtocol_received :
    let first : Publication := { topic := [0x61], payload := [], qos := .exactlyOnce }
    let second : Publication := { topic := [0x62], payload := [], qos := .atLeastOnce }
    let log := run [.insert first, .insert second, .reply 1 .received, .reply 1 .ack]
    log.window.redelivery = [.release 1, .publish 2 { second with dup := true }] ∧
      KeepsProtocol log.window log.past :=
  ⟨by decide, keepsProtocol_of_permitted (by decide)⟩

end MqttBroker.Window
