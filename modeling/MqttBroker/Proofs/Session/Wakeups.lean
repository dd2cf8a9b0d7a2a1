import MqttBroker.Proofs.Session.Operations
import MqttBroker.Proofs.Writer.Acts
/-!
The writer of a session and the tasks that wake it, with every lock section and every notification a
move of its own. The writer looks under the lock and starts to wait only after it has let go of the
lock; whatever a task puts there in between is announced by a notification that is still to come.
-/

namespace MqttBroker

/-- The two things a writer can be told. -/
inductive Bell where
  /-- There is an item in the outbox. -/
  | filled
  /-- There is a slot in the in-flight window. -/
  | slotFreed
deriving DecidableEq

/-- Where a writer waits. -/
inductive Place where
  | outbox
  /-- Until fewer than `limit` messages are in flight, with a message to send. -/
  | window (limit : Nat) (p : Publication)
deriving DecidableEq

def Place.bell : Place → Bell
  | .outbox => .filled
  | .window .. => .slotFreed

namespace Session

variable {s s' : Session} {bell other : Bell} {place : Place}

/-- Is a permit stored? -/
def isRung (s : Session) : Bell → Bool
  | .filled => s.outbox.filled.permit
  | .slotFreed => s.slotFreed.permit

/-- Stores a permit. -/
def ring (s : Session) : Bell → Session
  | .filled => { s with outbox := s.outbox.notify }
  | .slotFreed => { s with slotFreed := s.slotFreed.notify }

/-- Takes the permit, if one is stored. -/
def hear? (s : Session) : Bell → Option Session
  | .filled => s.outbox.awaken?.map fun outbox => { s with outbox }
  | .slotFreed => s.awaken?

/-- There is what a writer at this place waits for. -/
def Offers (s : Session) : Place → Prop
  | .outbox => s.outbox.items ≠ []
  | .window limit _ => s.window.size < limit

instance (s : Session) : (place : Place) → Decidable (s.Offers place)
  | .outbox => inferInstanceAs (Decidable (_ ≠ _))
  | .window .. => inferInstanceAs (Decidable (_ < _))

/-- One look at the place, which takes what is there. -/
def look? (s : Session) : Place → Option Session
  | .outbox => s.outbox.next?.map fun (_, outbox) => { s with outbox }
  | .window limit p => (s.reserve? limit p).map Prod.fst

theorem look?_eq_none_iff : s.look? place = none ↔ ¬ s.Offers place := by
  cases place with
  | outbox =>
    rw [look?, Option.map_eq_none_iff, Outbox.next?]
    split
    · next hnil => simp [Offers, hnil]
    · next hcons => simp [Offers, hcons]
  | window limit p =>
    rw [look?, Option.map_eq_none_iff, reserve?_eq_none]
    exact Nat.not_lt.symm

@[simp] theorem offers_ring : (s.ring bell).Offers place ↔ s.Offers place := by
  cases bell <;> cases place <;> exact Iff.rfl

@[simp] theorem isRung_ring_self (s : Session) (bell : Bell) :
    (s.ring bell).isRung bell = true := by
  cases bell <;> rfl

theorem isRung_ring_of_ne (h : bell ≠ other) : (s.ring bell).isRung other = s.isRung other := by
  cases bell <;> cases other <;> first | rfl | exact absurd rfl h

theorem hear?_eq_none_iff : s.hear? bell = none ↔ s.isRung bell = false := by
  cases bell
  · rw [hear?, Option.map_eq_none_iff, Outbox.awaken?, Option.map_eq_none_iff, Signal.take?, isRung]
    cases s.outbox.filled.permit <;> simp
  · rw [hear?, awaken?, Option.map_eq_none_iff, Signal.take?, isRung]
    cases s.slotFreed.permit <;> simp

/-- Storing a permit and taking it at once is the same as never storing it. -/
theorem hear?_ring (h : s.isRung bell = false) : (s.ring bell).hear? bell = some s := by
  obtain ⟨_, ⟨_, _, ⟨filled⟩⟩, _, _, ⟨slotFreed⟩, _⟩ := s
  cases bell
  · obtain rfl : filled = false := h
    rfl
  · obtain rfl : slotFreed = false := h
    rfl

/-- The same permits are stored, and what is to be had at any place was there before, or is what
`bells` tell of. -/
structure Changes (s s' : Session) (bells : List Bell) : Prop where
  rung : ∀ bell, s'.isRung bell = s.isRung bell
  offers : ∀ place, s'.Offers place → s.Offers place ∨ place.bell ∈ bells

/-- An outbox with other items is announced as filled. -/
theorem changes_items (s : Session) (items : List Outgoing) :
    s.Changes { s with outbox := { s.outbox with items } } [.filled] := by
  constructor
  · intro bell
    cases bell <;> rfl
  · intro place h
    cases place with
    | outbox => exact .inr (List.mem_singleton_self _)
    | window limit p => exact .inl h

/-- Another window is announced as having a slot. -/
theorem changes_window (s : Session) (window : Window) :
    s.Changes { s with window } [.slotFreed] := by
  constructor
  · intro bell
    cases bell <;> rfl
  · intro place h
    cases place with
    | outbox => exact .inl h
    | window limit p => exact .inr (List.mem_singleton_self _)

theorem changes_push {item : Outgoing} {o : Outbox} (h : s.outbox.push? item = some o) :
    s.Changes { s with outbox := o } [.filled] := by
  obtain ⟨-, h⟩ := Option.ite_none_left_eq_some.1 h
  cases h
  exact s.changes_items _

/-- A window of the same size offers no more, and needs no announcement. -/
theorem changes_received {id : UInt16} {window : Window}
    (h : s.window.received? id = some window) : s.Changes { s with window } [] := by
  have hsize := Window.size_received h
  constructor
  · exact (s.changes_window window).rung
  · intro place hoffers
    left
    cases place with
    | outbox => exact hoffers
    | window limit p =>
      show s.window.size < limit
      rw [← hsize]
      exact hoffers

/-- What is dropped from the outbox is not announced either. -/
theorem changes_discard (s : Session) :
    s.Changes { s with outbox := s.outbox.discardTransient } [] := by
  constructor
  · exact (s.changes_items _).rung
  · intro place hoffers
    left
    cases place with
    | outbox =>
      intro hnil
      apply hoffers
      show s.outbox.items.filter Outgoing.isLasting = []
      rw [hnil]
      rfl
    | window limit p => exact hoffers

end Session

/-- How far a writer is. -/
inductive Spot where
  /-- Not at a place where it could wait. -/
  | elsewhere
  /-- About to look. -/
  | looking (place : Place)
  /-- It has looked in vain and has let go of the lock, and does not wait yet. -/
  | missed (place : Place)
  | parked (place : Place)
  /-- It was parked and has been handed a permit, and does not run yet. -/
  | woken (place : Place)
  /-- It has put its message back and is about to say so. -/
  | returning
deriving DecidableEq

/-- A session, its writer, and the tasks that have changed it and are about to notify the writer,
each by the notification it is about to make. -/
structure Wakeups where
  session : Session
  writer : Spot := .elsewhere
  callers : List Bell := []
deriving DecidableEq

namespace Wakeups

inductive Move where
  /-- A task's lock section; a notification is due after all but the last two of these. -/
  | push (item : Outgoing)
  | putBack (item : Outgoing)
  | ack (id : UInt16)
  | complete (id : UInt16)
  | abandon (id : UInt16)
  | received (id : UInt16)
  | discard
  /-- A task makes the notification it is about to make. -/
  | notify (bell : Bell)
  /-- The writer turns to a place. -/
  | turn (place : Place)
  | look
  /-- The writer takes the permit and looks again, or parks. -/
  | wait
  /-- A woken writer runs. -/
  | resume
  /-- The writer stops waiting, since its connection is to close. -/
  | quit
  /-- The writer's own lock section and notification. -/
  | giveBack (item : Outgoing)
  | tell

/-- A notification: it hands the permit to the writer if that is parked there, and stores it if
not. -/
def ring (w : Wakeups) (bell : Bell) : Wakeups :=
  match w.writer with
  | .parked place =>
    if place.bell = bell then { w with writer := .woken place }
    else { w with session := w.session.ring bell }
  | _ => { w with session := w.session.ring bell }

/-- A task has changed the session and has a notification to make. -/
def post (w : Wakeups) (session : Session) (bell : Bell) : Wakeups :=
  { w with session, callers := bell :: w.callers }

def postWindow (w : Wakeups) (window? : Option Window) : Option Wakeups :=
  window?.map fun window => w.post { w.session with window } .slotFreed

def look (w : Wakeups) : Option Wakeups :=
  match w.writer with
  | .looking place => match w.session.look? place with
    | some session => some { w with session, writer := .elsewhere }
    | none => some { w with writer := .missed place }
  | _ => none

def wait (w : Wakeups) : Option Wakeups :=
  match w.writer with
  | .missed place => match w.session.hear? place.bell with
    | some session => some { w with session, writer := .looking place }
    | none => some { w with writer := .parked place }
  | _ => none

def resume (w : Wakeups) : Option Wakeups :=
  match w.writer with
  | .woken place => some { w with writer := .looking place }
  | _ => none

/-- A permit that has been handed over is not lost: it is stored again. -/
def quit (w : Wakeups) : Option Wakeups :=
  match w.writer with
  | .woken place => some { w with session := w.session.ring place.bell, writer := .elsewhere }
  | .returning => none
  | _ => some { w with writer := .elsewhere }

/-- The outcome of a move, or `none` where it cannot be made. -/
def step (w : Wakeups) : Move → Option Wakeups
  | .push item => (w.session.outbox.push? item).map fun outbox =>
      w.post { w.session with outbox } .filled
  | .putBack item =>
    some (w.post { w.session with outbox := w.session.outbox.putBack item } .filled)
  | .ack id => w.postWindow (w.session.window.ack? id)
  | .complete id => w.postWindow (w.session.window.complete? id)
  | .abandon id => w.postWindow (w.session.window.abandon? id)
  | .received id => (w.session.window.received? id).map fun window =>
      { w with session := { w.session with window } }
  | .discard => some { w with
      session := { w.session with outbox := w.session.outbox.discardTransient } }
  | .notify bell =>
    if bell ∈ w.callers then some { w.ring bell with callers := w.callers.erase bell } else none
  | .turn place => if w.writer = .elsewhere then some { w with writer := .looking place } else none
  | .look => w.look
  | .wait => w.wait
  | .resume => w.resume
  | .quit => w.quit
  | .giveBack item =>
    if w.writer = .elsewhere then
      some { w with
        session := { w.session with outbox := w.session.outbox.putBack item }
        writer := .returning }
    else none
  | .tell =>
    if w.writer = .returning then
      some { w with session := w.session.ring .filled, writer := .elsewhere }
    else none

/-- Makes the moves one after the other. -/
def run : List Move → Wakeups → Option Wakeups
  | [], w => some w
  | move :: moves, w => (w.step move).bind (run moves)

variable {w w' : Wakeups} {bell : Bell} {place : Place} {move : Move}

/-- The writer has let go of the lock without finding anything. -/
def IsIdle (w : Wakeups) (place : Place) : Prop :=
  w.writer = .missed place ∨ w.writer = .parked place

/-- A permit is stored, or a task is about to make that notification. -/
def IsDue (w : Wakeups) (bell : Bell) : Prop := w.session.isRung bell = true ∨ bell ∈ w.callers

/-- A writer that waits, or is about to, for what is there will be told. -/
structure IsAlert (w : Wakeups) : Prop where
  due : ∀ place, w.IsIdle place → w.session.Offers place → w.IsDue place.bell
  /-- A parked writer has found no permit, and any later one has been handed to it. -/
  unrung : ∀ place, w.writer = .parked place → w.session.isRung place.bell = false

/-! ### What a move keeps -/

/-- There is nothing to keep while the writer is not idle. -/
theorem isAlert_of_busy (hmissed : ∀ place, w.writer ≠ .missed place)
    (hparked : ∀ place, w.writer ≠ .parked place) : w.IsAlert := by
  constructor
  · rintro place (h | h)
    · exact absurd h (hmissed place)
    · exact absurd h (hparked place)
  · intro place h
    exact absurd h (hparked place)

theorem IsAlert.post (h : w.IsAlert) {session : Session}
    (hchanges : w.session.Changes session [bell]) : (w.post session bell).IsAlert := by
  constructor
  · intro place hidle hoffers
    rcases hchanges.offers place hoffers with hbefore | hbell
    · rcases h.due place hidle hbefore with hrung | hcaller
      · exact .inl ((hchanges.rung _).trans hrung)
      · exact .inr (List.mem_cons_of_mem _ hcaller)
    · rw [List.mem_singleton.1 hbell]
      exact .inr List.mem_cons_self
  · intro place hparked
    exact (hchanges.rung _).trans (h.unrung place hparked)

/-- What needs no announcement can be done without one. -/
theorem IsAlert.change (h : w.IsAlert) {session : Session}
    (hchanges : w.session.Changes session []) : IsAlert { w with session } := by
  constructor
  · intro place hidle hoffers
    rcases hchanges.offers place hoffers with hbefore | hbell
    · apply (h.due place hidle hbefore).imp_left
      exact (hchanges.rung _).trans
    · cases hbell
  · intro place hparked
    exact (hchanges.rung _).trans (h.unrung place hparked)

theorem ring_of_parked (hparked : w.writer = .parked place) :
    w.ring place.bell = { w with writer := .woken place } := by
  rw [ring, hparked]
  exact if_pos rfl

theorem ring_cases (w : Wakeups) (bell : Bell) :
    (∃ place, w.writer = .parked place ∧ place.bell = bell ∧
        w.ring bell = { w with writer := .woken place }) ∨
      (∀ place, w.writer = .parked place → place.bell ≠ bell) ∧
        w.ring bell = { w with session := w.session.ring bell } := by
  unfold ring
  split
  · next place hparked =>
    split
    · next hbell => exact .inl ⟨place, hparked, hbell, rfl⟩
    · next hbell =>
      refine .inr ⟨fun other hother => ?_, rfl⟩
      obtain rfl := Spot.parked.inj (hparked.symm.trans hother)
      exact hbell
  · next hnone => exact .inr ⟨fun place hparked => absurd hparked (hnone place), rfl⟩

theorem IsAlert.notify (h : w.IsAlert) (bell : Bell) :
    IsAlert { w.ring bell with callers := w.callers.erase bell } := by
  rcases w.ring_cases bell with ⟨place, -, -, heq⟩ | ⟨hother, heq⟩
  · rw [heq]
    exact isAlert_of_busy nofun nofun
  rw [heq]
  constructor
  · intro place hidle hoffers
    by_cases hbell : bell = place.bell
    · -- Nobody is parked there, so the permit that is made is stored.
      subst hbell
      exact .inl (Session.isRung_ring_self _ _)
    · apply (h.due place hidle (Session.offers_ring.1 hoffers)).imp
      · exact (Session.isRung_ring_of_ne hbell).trans
      · exact (List.mem_erase_of_ne (Ne.symm hbell)).2
  · intro place hparked
    rw [Session.isRung_ring_of_ne (hother place hparked).symm]
    exact h.unrung place hparked

/-- A writer that has looked in vain was offered nothing when it looked. -/
theorem isAlert_of_look (hlook : w.look = some w') : w'.IsAlert := by
  unfold look at hlook
  split at hlook
  · next place hplace =>
    split at hlook
    · cases hlook
      exact isAlert_of_busy nofun nofun
    · next hnone =>
      cases hlook
      constructor
      · rintro other (hmissed | hparked) hoffers
        · obtain rfl := Spot.missed.inj hmissed
          exact absurd hoffers (Session.look?_eq_none_iff.1 hnone)
        · cases hparked
      · exact nofun
  · cases hlook

/-- A writer that parks had what was due when it let go of the lock, and has found no permit. -/
theorem IsAlert.wait (h : w.IsAlert) (hwait : w.wait = some w') : w'.IsAlert := by
  unfold Wakeups.wait at hwait
  split at hwait
  · next place hmissed =>
    split at hwait
    · cases hwait
      exact isAlert_of_busy nofun nofun
    · next hhear =>
      cases hwait
      constructor
      · -- What is due has been so since the look: the writer was idle all along.
        rintro other (hother | hparked) hoffers
        · cases hother
        · obtain rfl := Spot.parked.inj hparked
          exact h.due place (.inl hmissed) hoffers
      · intro other hparked
        obtain rfl := Spot.parked.inj hparked
        exact Session.hear?_eq_none_iff.1 hhear
  · cases hwait

theorem isAlert_of_resume (hresume : w.resume = some w') : w'.IsAlert := by
  unfold resume at hresume
  split at hresume
  · cases hresume
    exact isAlert_of_busy nofun nofun
  · cases hresume

theorem isAlert_of_quit (hquit : w.quit = some w') : w'.IsAlert := by
  unfold quit at hquit
  split at hquit
  all_goals cases hquit
  all_goals exact isAlert_of_busy nofun nofun

theorem IsAlert.postWindow (h : w.IsAlert) {window? : Option Window}
    (hpost : w.postWindow window? = some w') : w'.IsAlert := by
  obtain ⟨window, -, rfl⟩ := Option.map_eq_some_iff.1 hpost
  exact h.post (w.session.changes_window window)

theorem IsAlert.step (h : w.IsAlert) (hstep : w.step move = some w') : w'.IsAlert := by
  cases move with
  | push item =>
    obtain ⟨outbox, hpush, rfl⟩ := Option.map_eq_some_iff.1 hstep
    exact h.post (Session.changes_push hpush)
  | putBack item =>
    cases hstep
    exact h.post (w.session.changes_items _)
  | ack id => exact h.postWindow hstep
  | complete id => exact h.postWindow hstep
  | abandon id => exact h.postWindow hstep
  | received id =>
    obtain ⟨window, hwindow, rfl⟩ := Option.map_eq_some_iff.1 hstep
    exact h.change (Session.changes_received hwindow)
  | discard =>
    cases hstep
    exact h.change w.session.changes_discard
  | notify bell =>
    obtain ⟨-, hstep⟩ := Option.ite_none_right_eq_some.1 hstep
    cases hstep
    exact h.notify bell
  | turn place =>
    obtain ⟨-, hstep⟩ := Option.ite_none_right_eq_some.1 hstep
    cases hstep
    exact isAlert_of_busy nofun nofun
  | look => exact isAlert_of_look hstep
  | wait => exact h.wait hstep
  | resume => exact isAlert_of_resume hstep
  | quit => exact isAlert_of_quit hstep
  | giveBack item =>
    obtain ⟨-, hstep⟩ := Option.ite_none_right_eq_some.1 hstep
    cases hstep
    exact isAlert_of_busy nofun nofun
  | tell =>
    obtain ⟨-, hstep⟩ := Option.ite_none_right_eq_some.1 hstep
    cases hstep
    exact isAlert_of_busy nofun nofun

theorem IsAlert.run {moves : List Move} (h : w.IsAlert) (hrun : run moves w = some w') :
    w'.IsAlert := by
  induction moves generalizing w with
  | nil =>
    cases hrun
    exact h
  | cons move moves ih =>
    obtain ⟨w₁, hstep, hrun⟩ := Option.bind_eq_some_iff.1 hrun
    exact ih (h.step hstep) hrun

/-! ### No wake-up is lost -/

/-- However tasks and the writer interleave, a writer that is parked where there is what it waits
for has a permit stored, or a task is about to make the notification it waits for; and that
notification wakes it. -/
theorem wakes_of_run {moves : List Move} (hstart : w.writer = .elsewhere)
    (hrun : run moves w = some w') (hparked : w'.writer = .parked place)
    (hoffers : w'.session.Offers place) :
    (w'.session.isRung place.bell = true ∨ place.bell ∈ w'.callers) ∧
      ∃ w'', w'.step (.notify place.bell) = some w'' ∧ w''.writer = .woken place := by
  have halert : w'.IsAlert := by
    apply IsAlert.run _ hrun
    apply isAlert_of_busy
    all_goals
      rw [hstart]
      exact nofun
  have hdue := halert.due place (.inr hparked) hoffers
  have hcaller : place.bell ∈ w'.callers := by
    apply hdue.resolve_left
    rw [halert.unrung place hparked]
    exact Bool.false_ne_true
  refine ⟨hdue, _, if_pos hcaller, ?_⟩
  rw [ring_of_parked hparked]

/-- A message that two tasks put into the outbox. -/
def parcel : Outgoing := .publish { topic := [97], payload := [1], qos := .atMostOnce }

/-- The writer takes two messages before either task has notified it, waits in vain on the permit of
the first notification, and has parked when a third message comes. -/
def overtaking : List Move :=
  [.push parcel, .push parcel, .turn .outbox, .look, .turn .outbox, .look, .notify .filled,
    .turn .outbox, .look, .wait, .look, .wait, .push parcel]

theorem wakes_of_run_overtaking :
    ∃ w, run overtaking { session := Session.fresh "a" 4 } = some w ∧
      w.writer = .parked .outbox ∧ w.session.Offers .outbox ∧
        (w.session.isRung .filled = true ∨ .filled ∈ w.callers) ∧
          ∃ w', w.step (.notify .filled) = some w' ∧ w'.writer = .woken .outbox := by
  have hrun : run overtaking { session := Session.fresh "a" 4 } =
      some
        { session := { Session.fresh "a" 4 with outbox := { items := [parcel], capacity := 4 } }
          writer := .parked .outbox
          callers := [.filled, .filled] } := rfl
  have hoffers : [parcel] ≠ [] := List.cons_ne_nil _ _
  exact ⟨_, hrun, rfl, hoffers, wakes_of_run rfl hrun rfl hoffers⟩

/-! ### The moves and the operations of a session -/

/-- Queueing an item is a lock section and a notification. -/
theorem run_enqueue? {s s' : Session} {item : Outgoing} (h : s.enqueue? item = some s') :
    run [.push item, .notify .filled] { session := s } = some { session := s' } := by
  obtain ⟨o', ho', rfl⟩ := Option.map_eq_some_iff.1 h
  obtain ⟨o, ho, rfl⟩ := Option.map_eq_some_iff.1 ho'
  have hpush : step { session := s } (.push item) =
      some (post { session := s } { s with outbox := o } .filled) := by
    rw [step, ho]
    rfl
  rw [run, hpush]
  rfl

/-- An acknowledgement is a lock section and a notification. -/
theorem run_settle {s : Session} {window : Window} {move : Move}
    (hmove : step { session := s } move = postWindow { session := s } (some window)) :
    run [move, .notify .slotFreed] { session := s } =
      some { session := (s.settle (some window)).1 } := by
  rw [run, hmove]
  rfl

/-- To hand a permit to a parked writer is to store it for the writer to take. -/
theorem run_wake (hparked : w.writer = .parked place)
    (hunrung : w.session.isRung place.bell = false) (hcaller : place.bell ∈ w.callers) :
    run [.notify place.bell, .resume] w =
      ((w.session.ring place.bell).hear? place.bell).map fun session =>
        { session, writer := .looking place, callers := w.callers.erase place.bell } := by
  have hnotify : w.step (.notify place.bell) =
      some { w with writer := .woken place, callers := w.callers.erase place.bell } := by
    rw [step, if_pos hcaller, ring_of_parked hparked]
  rw [run, hnotify, Session.hear?_ring hunrung]
  rfl

end Wakeups

namespace Writer

/-- Where the writer is, as far as waiting goes. -/
def spot (w : Writer) : Spot :=
  match w.phase with
  | .taking parked => if parked then .parked .outbox else .looking .outbox
  | .reserving p parked =>
    if parked then .parked (.window w.link.inFlightLimit p)
    else .looking (.window w.link.inFlightLimit p)
  | _ => .elsewhere

/-- A writer that neither waits nor is about to. -/
def IsFree (w : Writer) : Prop := w.spot = .elsewhere ∨ ∃ place, w.spot = .looking place

variable {w : Writer} {s : Session} {turn : Turn} {env : Surroundings}

theorem isFree_settle (w : Writer) (s : Session) : IsFree { w with phase := w.settle s } := by
  unfold settle
  split
  · exact .inl rfl
  · exact .inr ⟨.outbox, rfl⟩

theorem spot_put (w : Writer) (s : Session) (p : Packet) (left : Option (List Redelivery)) :
    (w.put s p left).writer.spot = .elsewhere ∧ (w.put s p left).session = s := by
  unfold put
  split
  · exact ⟨rfl, rfl⟩
  · exact ⟨rfl, rfl⟩

/-- Starting on an item leaves the session alone. -/
theorem isFree_begin (w : Writer) (s : Session) (item : Outgoing) :
    (w.begin s item).writer.IsFree ∧ (w.begin s item).session = s := by
  cases item with
  | control bytes => exact ⟨.inl rfl, rfl⟩
  | publish p =>
    dsimp only [begin]
    split
    · exact ⟨isFree_settle w s, rfl⟩
    split
    · obtain ⟨hspot, hsession⟩ := w.spot_put s (.publish (p.toPublish none)) none
      exact ⟨.inl hspot, hsession⟩
    · exact ⟨.inr ⟨_, rfl⟩, rfl⟩

end Writer

namespace Wakeups

/-- Some moves lead from `w` to `w'`. -/
def Leads (w w' : Wakeups) : Prop := ∃ moves, run moves w = some w'

theorem Leads.refl (w : Wakeups) : Leads w w := ⟨[], rfl⟩

theorem Leads.first {w w₁ w' : Wakeups} (move : Move) (hstep : w.step move = some w₁)
    (h : Leads w₁ w') : Leads w w' := by
  obtain ⟨moves, hrun⟩ := h
  refine ⟨move :: moves, ?_⟩
  rw [run, hstep]
  exact hrun

section

variable {w : Writer} {s : Session} {turn : Writer.Turn} {env : Writer.Surroundings}

theorem leads_of_isFree (s : Session) (h : w.IsFree) :
    Leads { session := s } { session := s, writer := w.spot } := by
  rcases h with hspot | ⟨place, hspot⟩
  · rw [hspot]
    exact .refl _
  · rw [hspot]
    exact .first (.turn place) rfl (.refl _)

theorem look_of_some {place : Place} {s' : Session} (h : s.look? place = some s') :
    look { session := s, writer := .looking place } = some { session := s' } := by
  simp only [look, h]

/-- Looking in vain and waiting. -/
theorem leads_wait (place : Place) (h : s.look? place = none) :
    Leads { session := s, writer := .looking place }
      (match s.hear? place.bell with
        | some s' => { session := s', writer := .looking place }
        | none => { session := s, writer := .parked place }) := by
  have hlook : step { session := s, writer := .looking place } .look =
      some { session := s, writer := .missed place } := by
    simp only [step, look, h]
  apply Leads.first .look hlook
  refine ⟨[.wait], ?_⟩
  simp only [run, step, wait]
  cases s.hear? place.bell <;> rfl

/-- The writer of an asked connection stops waiting. -/
theorem leads_close (w : Writer) (s : Session) (env : Writer.Surroundings) (place : Place)
    (parked : Bool) :
    Leads { session := s, writer := if parked then .parked place else .looking place }
      { session := s, writer := (w.close env s).writer.spot } := by
  cases parked
  · exact .first .quit rfl (.refl _)
  · exact .first .quit rfl (.refl _)

/-- A step of a writer at the outbox is made of these moves. A parked one has found no permit: a
later one is handed to it. -/
theorem leads_of_next {parked : Bool} (hphase : w.phase = .taking parked)
    (hunrung : parked = true → s.isRung .filled = false) (h : w.next env s parked = some turn) :
    Leads { session := s, writer := w.spot }
      { session := turn.session, writer := turn.writer.spot } := by
  have hspot : w.spot = if parked then .parked .outbox else .looking .outbox := by
    rw [Writer.spot, hphase]
  have hclose := leads_close w s env .outbox parked
  have hhear : s.hear? .filled = s.outbox.awaken?.map fun outbox => { s with outbox } := rfl
  rw [hspot]
  unfold Writer.next at h
  dsimp only at h
  split at h
  · cases h
    exact hclose
  cases parked with
  | true =>
    have hnone := Session.hear?_eq_none_iff.2 (hunrung rfl)
    rw [hhear, Option.map_eq_none_iff] at hnone
    simp only [if_true, hnone] at h
    split at h
    · cases h
      exact hclose
    · cases h
  | false =>
    simp only [Bool.false_eq_true, if_false] at h hclose ⊢
    split at h
    · next item outbox hnext =>
      cases h
      obtain ⟨hfree, hsession⟩ := w.isFree_begin { s with outbox } item
      rw [hsession]
      apply Leads.first .look _ (leads_of_isFree _ hfree)
      apply look_of_some
      rw [Session.look?, hnext]
      rfl
    · next hnext =>
      have hwait := leads_wait .outbox (s := s) (by rw [Session.look?, hnext]; rfl)
      rw [Place.bell, hhear] at hwait
      split at h
      · next hpermit =>
        cases h
        rw [hpermit] at hwait
        exact hwait
      · next hpermit =>
        rw [hpermit] at hwait
        split at h
        · cases h
          exact hclose
        · cases h
          exact hwait

/-- So is a step of a writer that waits for a slot. One that is asked to close puts its message back
and says so, unless it loses the message. -/
theorem leads_of_reserve {p : Publication} {parked : Bool}
    (hphase : w.phase = .reserving p parked) (hunrung : parked = true → s.isRung .slotFreed = false)
    (h : w.reserve env s p parked = some turn) :
    Leads { session := s, writer := w.spot }
      { session := turn.session, writer := turn.writer.spot } := by
  have hspot : w.spot = if parked then .parked (.window w.link.inFlightLimit p)
      else .looking (.window w.link.inFlightLimit p) := by
    rw [Writer.spot, hphase]
  have hback : Leads { session := s }
      { session := { s with outbox := s.outbox.requeue (.publish p) } } :=
    .first (.giveBack (.publish p)) rfl (.first .tell rfl (.refl _))
  have hclose : Leads { session := s, writer := w.spot }
      { session := { s with outbox := s.outbox.requeue (.publish p) } } := by
    rw [hspot]
    cases parked
    · exact .first .quit rfl hback
    · exact .first .quit rfl hback
  rw [hspot] at hclose ⊢
  unfold Writer.reserve at h
  dsimp only at h
  split at h
  · cases h
    exact hclose
  split at h
  · cases h
    cases parked
    · exact .first .quit rfl (.refl _)
    · exact .first .quit rfl (.refl _)
  cases parked with
  | true =>
    have hnone : s.awaken? = none := Session.hear?_eq_none_iff.2 (hunrung rfl)
    simp only [if_true, hnone] at h
    split at h
    · cases h
      exact hclose
    · cases h
  | false =>
    simp only [Bool.false_eq_true, if_false] at h hclose ⊢
    split at h
    · next s' id hreserve =>
      cases h
      obtain ⟨hput, hsession⟩ := w.spot_put s' (.publish (p.toPublish (some id))) none
      rw [hsession, hput]
      apply Leads.first .look _ (.refl _)
      apply look_of_some
      rw [Session.look?, hreserve]
      rfl
    · next hfull =>
      have hwait := leads_wait (.window w.link.inFlightLimit p) (s := s)
        (by rw [Session.look?, hfull]; rfl)
      rw [Place.bell, Session.hear?] at hwait
      split at h
      · next hpermit =>
        cases h
        rw [hpermit] at hwait
        exact hwait
      · next hpermit =>
        rw [hpermit] at hwait
        split at h
        · cases h
          exact hclose
        · cases h
          exact hwait

end

end Wakeups

end MqttBroker
