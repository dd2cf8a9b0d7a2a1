import MqttBroker.Proofs.Network.Acts
import MqttBroker.Proofs.Network.Handled
import MqttBroker.Proofs.Network.Possession
/-!
What a step of a connection or of its writer can do, said once: nothing that other connections
could tell, except that it binds the connection to a session, goes on with that session, or gives it
back. What is done to the sessions meanwhile can be read off the connection before and after.
-/

namespace MqttBroker

open Broker (Binds Deeds Holders LetsGo Proceeds)
open Tenancy (Does)

namespace Connection

/-- What a bound connection holds of its session. -/
def holding (c : Connection) (β : Binding) : Holding where
  lease := β.lease
  link := (c.writer?.map (·.2.link)).getD β.link
  writer := c.writer?.map (·.2)

/-- A connection that still reads packets has the link its writer started with. -/
def IsLinked (c : Connection) : Prop :=
  ∀ β deadline w, c.phase = .serving β deadline w → w.link = β.link

/-- What every connection is like by itself. -/
structure IsFit (c : Connection) : Prop where
  linked : c.IsLinked
  /-- What it waits to be let in with has been admitted. -/
  named : ∀ accepted ∈ c.waiting?, accepted.IsNamed

theorem IsFit.of_unbound {c : Connection} (hunbound : c.binding? = none)
    (hnamed : ∀ accepted ∈ c.waiting?, accepted.IsNamed) : c.IsFit := by
  refine ⟨fun β deadline w hphase => ?_, hnamed⟩
  rw [binding?, hphase] at hunbound
  cases hunbound

theorem IsFit.of_bound {c : Connection} {β : Binding} (hbound : c.binding? = some β)
    (hlinked : c.IsLinked) : c.IsFit := by
  refine ⟨hlinked, fun accepted hwaiting => ?_⟩
  unfold binding? at hbound
  unfold waiting? at hwaiting
  split at hwaiting
  · next hphase =>
    rw [hphase] at hbound
    cases hbound
  · cases hwaiting

/-- What is done to the sessions in the step of the connection from `c` to `c'` that handles
`handled?`. -/
def deeds (b : Broker) (handled? : Option (Binding × Packet)) (c c' : Connection) : Deeds :=
  match c.binding?, c'.binding? with
  | none, none => .none
  | none, some β => .on β.session [.arrive β.link]
  | some β, none =>
    (b.offers (b.session β.session).will.toList).and (.on β.session [.leave β.link.persistent])
  | some β, some _ => match handled? with
    | some (_, p) => Handled.deeds { broker := b, binding := β } p
    | none => match c.writer?, c'.writer? with
      | none, some (_, w) => .on β.session [.activate w.threshold]
      | _, _ => .none

/-- What is done to the sessions in a step of the connection's writer. -/
def written (c : Connection) (now : Nat) (look : Writer.Look) : Deeds :=
  match c.writer? with
  | some (β, _) => .on β.session [.write now c.outbound.room look]
  | none => .none

/-- What a step of a connection relies on. -/
structure Ready (hold : Holders) (b : Broker) (c : Connection) : Prop where
  known : ∀ key id, b.lookup key = some id → id < b.sessions.length
  /-- Whoever waited for a session finds it without an owner. -/
  free : ∀ accepted ∈ c.waiting?, b.owner? accepted.clientId = none
  fit : c.IsFit
  session : ∀ β ∈ c.binding?, β.session < b.sessions.length
  lease : ∀ β ∈ c.binding?, β.lease < b.leases.length
  owned : ∀ β ∈ c.binding?, (b.session β.session).owner = some β.lease
  holding : ∀ β ∈ c.binding?, hold β.session = some (c.holding β)

/-- Everything a step of a connection can do. -/
inductive Steps (hold : Holders) (b : Broker) (c : Connection) : Deeds → Turn → Prop
  | outside {turn : Turn} (hbefore : c.binding? = none) (hafter : turn.connection.binding? = none)
    (hnamed : ∀ accepted ∈ turn.connection.waiting?, accepted.IsNamed)
    (hproceeds : Proceeds hold hold .none b turn.broker) : Steps hold b c .none turn
  | binds {b' b'' : Broker} {c' : Connection} {accepted : Accepted} {β : Binding} {rest : Bytes}
    (hbefore : c.binding? = none) (hproceeds : Proceeds hold hold .none b b')
    (hbinds : Binds b' accepted b'' β) :
    Steps hold b c (.on β.session [.arrive β.link]) (c'.enter b'' (.greeting β rest))
  | goesOn {turn : Turn} {β β' : Binding} {deeds : Deeds} (hbefore : c.binding? = some β)
    (hafter : turn.connection.binding? = some β') (hplace : β'.place = β.place)
    (hlinked : turn.connection.IsLinked)
    (hproceeds : Proceeds hold
      (Function.update hold β.session (some (turn.connection.holding β'))) deeds b turn.broker) :
    Steps hold b c deeds turn
  | letsGo {b' b'' : Broker} {c' : Connection} {β : Binding} {result : Result} {deeds : Deeds}
    (hbefore : c.binding? = some β) (hstopped : ∀ x ∈ c.writer?, x.2.phase = .stopped)
    (hproceeds : Proceeds hold hold deeds b b') (hlets : LetsGo b' β b'') :
    Steps hold b c (deeds.and (.on β.session [.leave β.link.persistent])) (c'.close b'' result)

variable {hold : Holders} {b b' : Broker} {c : Connection} {deeds : Deeds} {turn : Turn}

theorem proceeds_of_asks (hold : Holders) (h : b.Asks b') : Proceeds hold hold .none b b' := by
  induction h with
  | rest => exact .refl hold b
  | assign assigned =>
    exact ⟨rfl, rfl, rfl, rfl, fun _ => rfl, fun _ => rfl, fun _ => .refl _⟩
  | close h l reason ih => exact ih.trans (.of_closeLease ..)

/-- What `conclude` does to the broker. -/
theorem letsGo_of_conclude {β : Binding} (hid : β.session < b.sessions.length)
    (howner : (b.session β.session).owner = some β.lease) (result : Result) :
    ∃ b', (∀ hold, Proceeds hold hold (b.offers (b.session β.session).will.toList) b b') ∧
      LetsGo b' β (release (recordError b β result) β) := by
  have hrecord := fun hold => proceeds_of_asks hold (asks_recordError b β result)
  have hplain := hrecord fun _ => none
  have hsame : (recordError b β result).offers
      ((recordError b β result).session β.session).will.toList =
        b.offers (b.session β.session).will.toList := by
    cases result <;> rfl
  obtain ⟨b', hproceeds, hlets⟩ := Broker.letsGo_of_release (hplain.sessions ▸ hid)
    ((hplain.owner β.session).trans howner)
  refine ⟨b', fun hold => ?_, hlets⟩
  rw [← hsame]
  exact (hrecord hold).trans (hproceeds hold)

/-! ### Binding -/

theorem steps_of_bind (hbefore : c.binding? = none) (hproceeds : Proceeds hold hold .none b b')
    (hknown : ∀ key id, b'.lookup key = some id → id < b'.sessions.length)
    (c' : Connection) (connect : Connect) {accepted : Accepted} (hnamed : accepted.IsNamed)
    (hfree : b'.owner? accepted.clientId = none) (handled? : Option (Binding × Packet)) :
    Steps hold b c (c.deeds b handled? (c'.bind b' connect accepted).connection)
      (c'.bind b' connect accepted) := by
  rcases hopen : b'.openSession accepted.clientId connect.cleanSession with ⟨b₁, id, present⟩
  have hopens := Broker.opens_of_openSession hknown hopen
  have hbinds := hopens.binds hfree connect (connect.will.map Message.ofWill)
  obtain ⟨bytes, hbytes⟩ :=
    (Admission.canonical_connAck hnamed b₁.limits present).exists_encoded
  unfold bind
  rw [hopen]
  -- Since nobody owns the session, there is no one to ask to close.
  have hprevious : (b₁.newLease.1.attach id b₁.newLease.2).2 = none := hopens.owner hfree
  dsimp only
  rw [hprevious]
  dsimp only
  split
  · rw [Connection.deeds, hbefore]
    exact .binds hbefore hproceeds hbinds
  · next hcause => cases hcause.symm.trans hbytes

/-! ### Within a session -/

/-- Nothing is done where no packet is handled and no writer starts. -/
theorem deeds_of_quiet {c' : Connection} {β β' : Binding} (hbefore : c.binding? = some β)
    (hafter : c'.binding? = some β') (hwriter : c.writer? = none → c'.writer? = none) :
    c.deeds b none c' = .none := by
  rw [Connection.deeds, hbefore, hafter]
  dsimp only
  split
  · next hnone hsome => cases hsome.symm.trans (hwriter hnone)
  · rfl

/-- The connection goes on with what it holds. -/
theorem steps_of_stay {β β' : Binding} (hready : Ready hold b c) (hbefore : c.binding? = some β)
    (hafter : turn.connection.binding? = some β') (hplace : β'.place = β.place)
    (hlinked : turn.connection.IsLinked) (hholding : turn.connection.holding β' = c.holding β)
    (hproceeds : Proceeds hold hold deeds b turn.broker) : Steps hold b c deeds turn := by
  refine .goesOn hbefore hafter hplace hlinked ?_
  rw [hholding, ← hready.holding β hbefore, Function.update_eq_self]
  exact hproceeds

theorem steps_of_conclude {β : Binding} (hready : Ready hold b c) (hbefore : c.binding? = some β)
    (hstopped : ∀ x ∈ c.writer?, x.2.phase = .stopped) (c' : Connection) (result : Result)
    (handled? : Option (Binding × Packet)) :
    Steps hold b c (c.deeds b handled? (c'.conclude b β result).connection)
      (c'.conclude b β result) := by
  obtain ⟨b', hproceeds, hlets⟩ :=
    letsGo_of_conclude (hready.session β hbefore) (hready.owned β hbefore) result
  rw [Connection.deeds, hbefore]
  exact .letsGo hbefore hstopped (hproceeds hold) hlets

theorem steps_of_greeting {β : Binding} {rest rest' : Bytes} (hready : Ready hold b c)
    (hphase : c.phase = .greeting β rest) (c' : Connection) :
    Steps hold b c .none (c'.enter b (.greeting β rest')) := by
  have hbefore : c.binding? = some β := by rw [binding?, hphase]
  refine steps_of_stay hready hbefore rfl rfl (by rintro _ _ _ ⟨⟩) ?_ (.refl hold b)
  rw [holding, holding, writer?, writer?, hphase]
  rfl

theorem steps_of_activate {now : Nat} {β : Binding} {rest : Bytes} (hready : Ready hold b c)
    (hphase : c.phase = .greeting β rest) (c' : Connection) :
    Steps hold b c (.on β.session [.activate b.limits.maxUnflushedBytes])
      (c'.activate now b β) := by
  have hbefore : c.binding? = some β := by rw [binding?, hphase]
  have hholding : c.holding β = ⟨β.lease, β.link, none⟩ := by
    rw [holding, writer?, hphase]
    rfl
  refine .goesOn hbefore rfl rfl (by rintro _ _ _ ⟨⟩; rfl)
    (.of_update β.session _ rfl rfl (.refl hold _) ?_)
  -- The session becomes active, then the writer starts: two moves of the tenancy.
  show Does _ _
    (Broker.tenancy (b.updateSession β.session fun s => { s with active := true }) β.session _)
  rw [hready.holding β hbefore, hholding, Broker.tenancy_updateSession (hready.session β hbefore)]
  let s := b.session β.session
  exact .trans (.of_step (.adjust s.subscriptions s.incoming s.will true s.owner) rfl)
    (.of_step (.activate b.limits.maxUnflushedBytes) rfl)

section

variable {β : Binding} {deadline : Option Nat} {w : Writer}

theorem steps_of_read (hready : Ready hold b c) (hphase : c.phase = .serving β deadline w)
    {c' : Connection} (hsame : c'.phase = c.phase) :
    Steps hold b c (c.deeds b none c') { broker := b, connection := c' } := by
  have hbefore : c.binding? = some β := by rw [binding?, hphase]
  have hafter : c'.binding? = some β := (binding?_congr hsame).trans hbefore
  have hwriter : c'.writer? = c.writer? := by rw [writer?, writer?, hsame]
  rw [deeds_of_quiet hbefore hafter hwriter.trans]
  refine steps_of_stay hready hbefore hafter rfl ?_ ?_ (.refl hold b)
  · rw [IsLinked, hsame]
    exact hready.fit.linked
  · rw [holding, holding, hwriter]

theorem steps_of_drain (hready : Ready hold b c) (hphase : c.phase = .serving β deadline w)
    {b' : Broker} (hproceeds : Proceeds hold hold .none b b') (c' : Connection)
    (result : Result) :
    Steps hold b c (c.deeds b none (c'.drain b' β w result).connection)
      (c'.drain b' β w result) := by
  have hbefore : c.binding? = some β := by rw [binding?, hphase]
  have hwriter : c.writer? = some (β, w) := by rw [writer?, hphase]
  rw [deeds_of_quiet hbefore rfl fun hnone => absurd (hnone.symm.trans hwriter) (by rintro ⟨⟩)]
  refine steps_of_stay hready hbefore rfl rfl (by rintro _ _ _ ⟨⟩) ?_
    (hproceeds.trans (proceeds_of_asks hold (asks_recordError b' β result)))
  rw [holding, holding, hwriter]
  rfl

/-- Whatever its verdict, the connection is left with the binding that the handling leaves. -/
theorem binding?_handle (now : Nat) (b : Broker) (c : Connection) (β : Binding) (w : Writer)
    (p : Packet) : (c.handle now b β w p).connection.binding? = some (b.handle β p).binding := by
  unfold handle
  dsimp only
  cases (b.handle β p).verdict <;> rfl

theorem steps_of_handle {now : Nat} (hready : Ready hold b c)
    (hphase : c.phase = .serving β deadline w) (c' : Connection) (p : Packet) :
    Steps hold b c (Handled.deeds { broker := b, binding := β } p) (c'.handle now b β w p) := by
  have hbefore : c.binding? = some β := by rw [binding?, hphase]
  have hlink := hready.fit.linked β deadline w hphase
  have hholding : c.holding β = ⟨β.lease, w.link, some w⟩ := by
    rw [holding, writer?, hphase]
    rfl
  have hcharge : Handled.InCharge hold { broker := b, binding := β } :=
    ⟨⟨w, by rw [hready.holding β hbefore, hholding, hlink]⟩, hready.session β hbefore,
      hready.lease β hbefore, rfl⟩
  have hhandles : Handled.Handles hold _ { broker := b, binding := β } (b.handle β p) :=
    Handled.handles_onPacket hcharge p
  have hproceeds := hhandles.proceeds
  have hlease : (b.handle β p).binding.lease = β.lease := congrArg (·.2.1) hhandles.place
  have hkept : (⟨(b.handle β p).binding.lease, w.link, some w⟩ : Holding) = c.holding β := by
    rw [hholding, hlease]
  -- By its verdict the connection goes on, or drains what its writer has left.
  unfold handle Handled.settled at *
  dsimp only
  split
  · next hverdict =>
    rw [hverdict] at hproceeds
    refine steps_of_stay hready hbefore rfl hhandles.place ?_ hkept hproceeds
    rintro _ _ _ ⟨⟩
    exact hlink.trans (hhandles.link hverdict).symm
  · next hverdict =>
    rw [hverdict] at hproceeds
    exact steps_of_stay hready hbefore rfl hhandles.place (by rintro _ _ _ ⟨⟩) hkept hproceeds
  · next hverdict =>
    rw [hverdict] at hproceeds
    exact steps_of_stay hready hbefore rfl hhandles.place (by rintro _ _ _ ⟨⟩) hkept hproceeds

end

theorem steps_of_step {now : Nat} {closeFirst : Bool} (hready : Ready hold b c)
    (h : c.step now closeFirst b = some turn) :
    Steps hold b c (c.deeds b (c.handles? closeFirst b) turn.connection) turn := by
  cases acts_of_step h with
  | outside hbefore hafter hwaiting hasks =>
    have hnone : c.deeds b (c.handles? closeFirst b) turn.connection = .none := by
      rw [Connection.deeds, hbefore, hafter]
    rw [hnone]
    refine .outside hbefore hafter (fun accepted h => ?_) (proceeds_of_asks hold hasks)
    exact (hwaiting accepted h).elim id (hready.fit.named accepted)
  | @bind b' c' connect accepted hconnect hasks hadmitted =>
    have hproceeds : Proceeds hold hold .none b b' := proceeds_of_asks hold hasks
    -- Being asked to close has touched neither the registry nor the sessions.
    have hknown : ∀ key id, b'.lookup key = some id → id < b'.sessions.length := by
      intro key id
      rw [Broker.lookup, hproceeds.registry, hproceeds.sessions]
      exact hready.known key id
    have hnamed : accepted.IsNamed ∧ b'.owner? accepted.clientId = none := by
      rcases hadmitted with ⟨hwaiting, rfl⟩ | hadmitted
      · exact ⟨hready.fit.named accepted hwaiting, hready.free accepted hwaiting⟩
      · exact hadmitted
    exact steps_of_bind (binding?_of_connect? hconnect) hproceeds hknown c' connect hnamed.1
      hnamed.2 _
  | @greet c' β rest rest' hphase =>
    have hhandles : c.handles? closeFirst b = none := by rw [handles?, hphase]
    have hbefore : c.binding? = some β := by rw [binding?, hphase]
    rw [hhandles, deeds_of_quiet hbefore rfl fun _ => rfl]
    exact steps_of_greeting hready hphase _
  | @activate c' β rest hphase =>
    have hdeeds : c.deeds b (c.handles? closeFirst b) (c'.activate now b β).connection =
        .on β.session [.activate b.limits.maxUnflushedBytes] := by
      rw [Connection.deeds, binding?, handles?, writer?, hphase]
      rfl
    rw [hdeeds]
    exact steps_of_activate hready hphase _
  | read hphase hhandles hsame =>
    rw [hhandles]
    exact steps_of_read hready hphase hsame
  | @handle c' β deadline w p hphase hhandles =>
    have hdeeds : c.deeds b (c.handles? closeFirst b) (c'.handle now b β w p).connection =
        Handled.deeds { broker := b, binding := β } p := by
      have hbefore : c.binding? = some β := by rw [binding?, hphase]
      rw [Connection.deeds, hbefore, binding?_handle, hhandles]
    rw [hdeeds]
    exact steps_of_handle hready hphase _ _
  | drain hphase hhandles hasks =>
    rw [hhandles]
    exact steps_of_drain hready hphase (proceeds_of_asks hold hasks) _ _
  | conclude hbefore hhandles hstopped => exact steps_of_conclude hready hbefore hstopped _ _ _

/-! ### The writer -/

section

variable {β : Binding} {w : Writer}

theorem waiting?_of_writer? (h : c.writer? = some (β, w)) : c.waiting? = none := by
  unfold writer? at h
  split at h
  · next hphase => rw [waiting?, hphase]
  · next hphase => rw [waiting?, hphase]
  · cases h

theorem waiting?_of_writeStep {now : Nat} {look : Writer.Look}
    (h : c.writeStep now look b = some turn) : c.waiting? = none := by
  obtain ⟨x, hwriter, -⟩ := Option.bind_eq_some_iff.1 h
  exact waiting?_of_writer? hwriter

theorem holding_of_writer? (h : c.writer? = some (β, w)) :
    c.holding β = ⟨β.lease, w.link, some w⟩ := by
  rw [holding, h]
  rfl

theorem serving_of_setWriter (h : c.writer? = some (β, w)) {w' w'' : Writer} {β' : Binding}
    {deadline : Option Nat} (hphase : (c.setWriter w').phase = .serving β' deadline w'') :
    c.phase = .serving β' deadline w ∧ w'' = w' := by
  unfold writer? at h
  split at h
  · next hserving =>
    cases h
    rw [setWriter, hserving] at hphase
    cases hphase
    exact ⟨hserving, rfl⟩
  · next hdraining =>
    rw [setWriter, hdraining] at hphase
    cases hphase
  · cases h

/-- The session and its holder after a step of the writer are as a move of their tenancy leaves
them. -/
theorem tenancy_of_writeStep {x : Tenant} {turn' : Writer.Turn}
    (hsession : β.session < b.sessions.length) (hlease : β.lease < b.leases.length)
    (hlink : turn'.writer.link = w.link)
    (hx : x = { link := w.link, reason := (b.lease β.lease).reason, writer := some w }) :
    (if turn'.lost then (b.putSession β.session turn'.session).closeLease β.lease .connectionLost
      else b.putSession β.session turn'.session).tenancy β.session
        (some ⟨β.lease, turn'.writer.link, some turn'.writer⟩) =
      { session := turn'.session, tenant := some (x.after turn') } := by
  have hput : (b.putSession β.session turn'.session).tenancy β.session
      (some ⟨β.lease, turn'.writer.link, some turn'.writer⟩) =
        { session := turn'.session, tenant := some { x with writer := some turn'.writer } } := by
    rw [Broker.putSession, Broker.tenancy_updateSession hsession, Broker.tenancy, hlink, hx]
    rfl
  rw [Tenant.after]
  split
  · have hclosed := Broker.tenancy_closeLease (b := b.putSession β.session turn'.session)
      (h := ⟨β.lease, turn'.writer.link, some turn'.writer⟩) hlease β.session .connectionLost
    rw [hput] at hclosed
    exact hclosed
  · exact hput

theorem steps_of_writeStep {now : Nat} {look : Writer.Look} (hready : Ready hold b c)
    (h : c.writeStep now look b = some turn) : Steps hold b c (c.written now look) turn := by
  obtain ⟨⟨β, w⟩, hwriter, h⟩ := Option.bind_eq_some_iff.1 h
  obtain ⟨turn', hturn', h⟩ := Option.bind_eq_some_iff.1 h
  cases h
  rw [written, hwriter]
  have hbefore := binding?_of_writer? hwriter
  have hsession := hready.session β hbefore
  have hlease := hready.lease β hbefore
  have hacts := Writer.acts_of_step hturn'
  let c₁ : Connection := { c with outbound := transmit c.outbound turn' }
  have hwriter₁ : (c₁.setWriter turn'.writer).writer? = some (β, turn'.writer) :=
    writer?_setWriter (c := c₁) hwriter _
  refine .goesOn hbefore (binding?_of_writer? hwriter₁) rfl ?_
    (.of_update β.session _ (f := fun _ => turn'.session)
      (hacts.session_congr Session.clientId fun _ _ _ _ => rfl)
      (hacts.session_congr Session.owner fun _ _ _ _ => rfl) ?_ ?_)
  · intro β' deadline w' hphase
    obtain ⟨hserving, rfl⟩ := serving_of_setWriter (c := c₁) hwriter hphase
    exact hacts.link_eq.trans (hready.fit.linked β' deadline w hserving)
  · dsimp only
    split
    · exact .of_closeLease ..
    · exact .refl ..
  · rw [hready.holding β hbefore, holding_of_writer? hwriter, holding_of_writer? hwriter₁]
    refine .of_step (.write now c.outbound.room look) ?_
    dsimp only
    rw [tenancy_of_writeStep hsession hlease hacts.link_eq rfl, Tenancy.step]
    exact Option.map_eq_some_iff.2 ⟨turn', hturn', rfl⟩

end

end Connection

end MqttBroker
