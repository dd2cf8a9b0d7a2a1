import MqttBroker.Proofs.Connection.Reception
import MqttBroker.Proofs.Network.Fixtures
import MqttBroker.Proofs.Network.Wills
/-!
A connection whose stream brings no CONNECT that is let in. Whatever else is going on, the broker
and the other connections fare as they would without it.
-/

namespace MqttBroker

open Packet (Leads)

/-- Is the CONNECT let in, with one or another client id made up for it if need be? -/
def Connect.IsAdmitted (policy : Limits × Option Authenticator) (connect : Connect) : Prop :=
  ∃ made accepted, Admission.check policy.1 policy.2 made connect = .ok accepted

namespace Broker

/-- The broker lets in only what is admitted, and takes no note of anything else. -/
theorem validate_cases (b : Broker) (connect : Connect) :
    (∃ b' accepted, b.validate connect = (b', .ok accepted) ∧ connect.IsAdmitted b.policy) ∨
      ∃ rejection, b.validate connect = (b, .error rejection) := by
  unfold validate
  dsimp only
  split
  · next hverdict =>
    rw [hverdict]
    exact .inl ⟨_, _, rfl, b.madeClientId, _, hverdict⟩
  · cases hverdict : Admission.check b.limits b.credentials b.madeClientId connect with
    | ok accepted => exact .inl ⟨_, _, rfl, b.madeClientId, accepted, hverdict⟩
    | error rejection => exact .inr ⟨rejection, rfl⟩

end Broker

namespace Connection

/-- A connection that has not been let in, and has taken in the bytes `s`. It keeps them until it
has read its first packet. -/
inductive IsOutside (limit : Nat) (s : Bytes) (c : Connection) : Prop where
  | awaiting {deadline : Nat} (hinbox : c.inbox = { maxPacketSize := limit, buffer := s })
    (hphase : c.phase = .awaiting deadline)
  | refusing {rest : Bytes} {cause : Refusal} (hphase : c.phase = .refusing rest cause)
  | ended {result : Result} (hphase : c.phase = .ended result)

/-- The bytes that a connection which has come from `c` to `c'` has taken in. -/
def taken (c c' : Connection) : Bytes :=
  c.inbound.held.take (c.inbound.held.length - c'.inbound.held.length)

variable {now limit : Nat} {closeFirst : Bool} {look : Writer.Look} {s : Bytes} {b : Broker}
  {c : Connection} {turn : Turn}

theorem isOutside_accept (limits : Limits) (now capacity : Nat) :
    (accept limits now capacity).IsOutside limits.maxPacketSize [] := .awaiting rfl rfl

theorem IsOutside.binding?_eq_none (h : c.IsOutside limit s) : c.binding? = none := by
  cases h <;> next hphase => rw [binding?, hphase]

theorem IsOutside.writeStep_ne_some (h : c.IsOutside limit s) :
    c.writeStep now look b ≠ some turn := by
  intro hturn
  obtain ⟨-, -, β, hβ, -⟩ := carries_of_writeStep hturn
  cases h.binding?_eq_none.symm.trans hβ

theorem IsOutside.client (h : c.IsOutside limit s) (inbound outbound : Pipe) :
    IsOutside limit s { c with inbound, outbound } := by
  cases h with
  | awaiting hinbox hphase => exact .awaiting hinbox hphase
  | refusing hphase => exact .refusing hphase
  | ended hphase => exact .ended hphase

/-- Unless a CONNECT that is let in comes first, the connection stays outside and the broker as it
is. -/
theorem IsOutside.step (h : c.IsOutside limit s)
    (hrefused : ∀ connect k, Leads .v311 limit s (.connect connect) k →
      ¬ connect.IsAdmitted b.policy)
    (hturn : c.step now closeFirst b = some turn) :
    turn.broker = b ∧ turn.connection.IsOutside limit (s ++ c.taken turn.connection) := by
  have hclose : ∀ (c' : Connection) result, (c'.close b result).broker = b ∧
      (c'.close b result).connection.IsOutside limit
        (s ++ c.taken (c'.close b result).connection) := fun c' result => ⟨rfl, .ended rfl⟩
  cases h with
  | awaiting hinbox hphase =>
    rw [Connection.step, hphase] at hturn
    dsimp only at hturn
    unfold await at hturn
    generalize hfound : c.receive = found at hturn
    have hreceives := c.receives_receive
    rw [hfound] at hreceives
    cases hreceives with
    | @packet p k hleads =>
      rw [hinbox] at hleads
      cases p with
      | connect connect =>
        cases hturn
        unfold meet
        rcases b.validate_cases connect with ⟨b', accepted, -, hadmitted⟩ | ⟨rejection, heq⟩
        · exact absurd hadmitted (hrefused connect k hleads)
        · rw [heq]
          exact ⟨rfl, .refusing rfl⟩
      | _ =>
        cases hturn
        exact hclose _ _
    | malformed | cut | finished =>
      cases hturn
      exact hclose _ _
    | more hheld =>
      cases hturn
      refine ⟨rfl, .awaiting ?_ hphase⟩
      have htaken : c.taken { c with
          inbox := c.inbox.feed c.inbound.held, inbound := { c.inbound with held := [] } } =
          c.inbound.held := List.take_length
      dsimp only
      rw [htaken, hinbox]
      rfl
    | nothing =>
      dsimp only at hturn
      obtain ⟨-, hturn⟩ := Option.ite_none_right_eq_some.1 hturn
      cases hturn
      exact hclose _ _
  | refusing hphase =>
    rw [Connection.step, hphase] at hturn
    dsimp only at hturn
    unfold refuse at hturn
    split at hturn
    · cases hturn
      exact hclose _ _
    · split at hturn
      · cases hturn
        exact hclose _ _
      · cases hturn
      · cases hturn
        exact ⟨rfl, .refusing rfl⟩
  | ended hphase =>
    rw [Connection.step, hphase] at hturn
    cases hturn

end Connection

namespace Network

variable {n n' m m' : Network} {move : Move} {moves : List Move} {i j limit : Nat} {s : Bytes}

/-- The connection that a client or the broker's side of it makes the move on. -/
def Move.on? : Move → Option Nat
  | .client i _ _ => some i
  | move => move.turn?

theorem Move.on?_of_turn? (h : move.turn? = some i) : move.on? = some i := by
  cases move <;> first | exact h | cases h

/-- The bytes that the `i`-th connection takes in. -/
def taken (n : Network) (i : Nat) (move : Move) (n' : Network) : Bytes :=
  if move.turn? = some i then
    match n.connections[i]?, n'.connections[i]? with
    | some c, some c' => c.taken c'
    | _, _ => []
  else []

/-- The bytes that it takes in in a run. -/
def received (i : Nat) : List Move → Network → Bytes
  | [], _ => []
  | move :: moves, n => match n.step move with
    | some n' => n.taken i move n' ++ received i moves n'
    | none => []

/-- In the run from `n` to `n'` nothing comes of the `i`-th connection. -/
structure LeavesNoTrace (i : Nat) (moves : List Move) (n n' : Network) : Prop where
  /-- No turn of it makes a difference to the broker, and nothing is dispatched for it. -/
  turns : ∀ m move m', Passes moves n m move m' → move.turn? = some i →
    m'.broker = m.broker ∧ m.words i move m' = []
  unbound : ∀ m move m', Passes moves n m move m' → m'.binding? i = none
  /-- Without it everything else goes the same way. -/
  without : ∃ m, run (moves.filter fun move => move.on? != some i) n = some m ∧
    m.broker = n'.broker ∧ ∀ j ≠ i, m.connections[j]? = n'.connections[j]?

/-! ### One move -/

/-- The same broker, and the same connections but for the `i`-th. -/
structure Alike (i : Nat) (n m : Network) : Prop where
  broker : m.broker = n.broker
  length : m.connections.length = n.connections.length
  others : ∀ j ≠ i, m.connections[j]? = n.connections[j]?

namespace Alike

theorem refl (i : Nat) (n : Network) : Alike i n n := ⟨rfl, rfl, fun _ _ => rfl⟩

theorem trans {n'' : Network} (h : Alike i n n') (h' : Alike i n' n'') : Alike i n n'' :=
  ⟨h'.broker.trans h.broker, h'.length.trans h.length, fun j hj =>
    (h'.others j hj).trans (h.others j hj)⟩

theorem symm (h : Alike i n m) : Alike i m n :=
  ⟨h.broker.symm, h.length.symm, fun j hj => (h.others j hj).symm⟩

theorem set (h : Alike i n m) (j : Nat) (c : Connection) (b : Broker) :
    Alike i { broker := b, connections := n.connections.set j c }
      { broker := b, connections := m.connections.set j c } := by
  refine ⟨rfl, by simp only [List.length_set, h.length], fun k hk => ?_⟩
  dsimp only
  rw [List.getElem?_set, List.getElem?_set, h.length, h.others k hk]

/-- A move on another connection can be made in both. -/
theorem step (h : Alike i n m) (hmove : move.on? ≠ some i) (hstep : n.step move = some n') :
    ∃ m', m.step move = some m' ∧ Alike i n' m' := by
  have hother : ∀ j, some j ≠ some i → m.connections[j]? = n.connections[j]? :=
    fun j hj => h.others j fun heq => hj (congrArg some heq)
  cases move with
  | accept now capacity =>
    cases hstep
    refine ⟨_, rfl, h.broker, ?_, fun j hj => ?_⟩
    · simp only [List.length_append, h.length]
      rfl
    · dsimp only
      rw [List.getElem?_append, List.getElem?_append, h.length, h.others j hj, h.broker]
  | client j inbound outbound =>
    obtain ⟨c, hc, rfl⟩ := Option.map_eq_some_iff.1 hstep
    refine ⟨_, ?_, h.set j { c with inbound, outbound } n.broker⟩
    rw [Network.step, hother j hmove, hc, h.broker]
    rfl
  | step j now closeFirst =>
    obtain ⟨c, hc, hstep⟩ := Option.bind_eq_some_iff.1 hstep
    obtain ⟨turn, hturn, rfl⟩ := Option.map_eq_some_iff.1 hstep
    refine ⟨_, ?_, h.set j turn.connection turn.broker⟩
    rw [Network.step, hother j hmove, hc, Option.bind_some, h.broker, hturn]
    rfl
  | write j now look =>
    obtain ⟨c, hc, hstep⟩ := Option.bind_eq_some_iff.1 hstep
    obtain ⟨turn, hturn, rfl⟩ := Option.map_eq_some_iff.1 hstep
    refine ⟨_, ?_, h.set j turn.connection turn.broker⟩
    rw [Network.step, hother j hmove, hc, Option.bind_some, h.broker, hturn]
    rfl
  | publish msg =>
    cases hstep
    exact ⟨_, rfl, by rw [h.broker], h.length, h.others⟩
  | shutdown =>
    cases hstep
    exact ⟨_, rfl, by rw [h.broker], h.length, h.others⟩

end Alike

/-- A move on another connection leaves this one where it is. -/
theorem connection_of_step {c : Connection} (hc : n.connections[i]? = some c)
    (hmove : move.on? ≠ some i) (hstep : n.step move = some n') :
    n'.connections[i]? = some c := by
  have hother : ∀ {j : Nat} {c' : Connection}, some j ≠ some i →
      (n.connections.set j c')[i]? = some c := fun hj =>
    (List.getElem?_set_ne fun heq => hj (congrArg some heq)).trans hc
  cases move with
  | accept now capacity =>
    cases hstep
    exact (List.getElem?_append_left (List.getElem?_eq_some_iff.1 hc).1).trans hc
  | client j inbound outbound =>
    obtain ⟨c', -, rfl⟩ := Option.map_eq_some_iff.1 hstep
    exact hother hmove
  | step j now closeFirst | write j now look =>
    obtain ⟨c', -, hstep⟩ := Option.bind_eq_some_iff.1 hstep
    obtain ⟨turn, -, rfl⟩ := Option.map_eq_some_iff.1 hstep
    exact hother hmove
  | publish | shutdown =>
    cases hstep
    exact hc

/-- The `i`-th connection has not been let in, and has taken in the bytes `s`. -/
def HasOutside (i limit : Nat) (s : Bytes) (n : Network) : Prop :=
  ∃ c, n.connections[i]? = some c ∧ c.IsOutside limit s

namespace HasOutside

theorem binding?_eq_none (h : HasOutside i limit s n) : n.binding? i = none := by
  obtain ⟨c, hc, houtside⟩ := h
  rw [binding?_eq_some hc, houtside.binding?_eq_none]

/-- A move on the connection itself: it stays outside, and nothing else changes. -/
theorem own (h : HasOutside i limit s n)
    (hrefused : ∀ connect k, Packet.Leads .v311 limit s (.connect connect) k →
      ¬ connect.IsAdmitted n.broker.policy)
    (hmove : move.on? = some i) (hstep : n.step move = some n') :
    HasOutside i limit (s ++ n.taken i move n') n' ∧ Alike i n n' := by
  obtain ⟨c, hc, houtside⟩ := h
  have hi := (List.getElem?_eq_some_iff.1 hc).1
  have halike : ∀ c', Alike i n { n with connections := n.connections.set i c' } := fun c' =>
    ⟨rfl, List.length_set .., fun j hj => List.getElem?_set_ne hj.symm⟩
  cases move with
  | client j inbound outbound =>
    cases hmove
    obtain ⟨c', hc', rfl⟩ := Option.map_eq_some_iff.1 hstep
    cases hc.symm.trans hc'
    have hnone : n.taken i (.client i inbound outbound) { n with
        connections := n.connections.set i { c with inbound, outbound } } = [] := rfl
    rw [hnone, List.append_nil]
    exact ⟨⟨_, List.getElem?_set_self hi, houtside.client inbound outbound⟩, halike _⟩
  | step j now closeFirst =>
    cases hmove
    obtain ⟨c', hc', hstep⟩ := Option.bind_eq_some_iff.1 hstep
    obtain ⟨turn, hturn, rfl⟩ := Option.map_eq_some_iff.1 hstep
    cases hc.symm.trans hc'
    obtain ⟨hbroker, hafter⟩ := houtside.step hrefused hturn
    have hc'' : (n.withTurn i turn).connections[i]? = some turn.connection :=
      List.getElem?_set_self hi
    have htaken : n.taken i (.step i now closeFirst) (n.withTurn i turn) =
        c.taken turn.connection := by
      have hself : (Move.step i now closeFirst).turn? = some i := rfl
      rw [taken, if_pos hself, hc, hc'']
    rw [htaken]
    refine ⟨⟨_, hc'', hafter⟩, ?_⟩
    rw [withTurn, hbroker]
    exact halike _
  | write j now look =>
    cases hmove
    obtain ⟨c', hc', hstep⟩ := Option.bind_eq_some_iff.1 hstep
    obtain ⟨turn, hturn, -⟩ := Option.map_eq_some_iff.1 hstep
    cases hc.symm.trans hc'
    exact absurd hturn houtside.writeStep_ne_some
  | accept | publish | shutdown => cases hmove

theorem other (h : HasOutside i limit s n) (hmove : move.on? ≠ some i)
    (hstep : n.step move = some n') : HasOutside i limit (s ++ n.taken i move n') n' := by
  obtain ⟨c, hc, houtside⟩ := h
  have hnone : n.taken i move n' = [] := by
    exact if_neg fun hturn => hmove (Move.on?_of_turn? hturn)
  rw [hnone, List.append_nil]
  exact ⟨c, connection_of_step hc hmove hstep, houtside⟩

end HasOutside

theorem words_of_unbound (hbefore : n.binding? i = none) (hmove : move.turn? = some i) :
    n.words i move n' = [] := by
  rw [words, parting_of_unbound hbefore, List.append_nil]
  cases move with
  | step j now closeFirst =>
    cases hmove
    cases hc : n.connections[i]? with
    | none =>
      rw [handling?, hc]
      rfl
    | some c =>
      rw [binding?_eq_some hc] at hbefore
      rw [handling?_step hc, Connection.handles?_of_binding? hbefore]
      rfl
  | write => rfl
  | accept | client | publish | shutdown => cases hmove

/-! ### Runs -/

/-- If the moves on a connection change nothing else, they can be left out. -/
theorem run_without (hown : ∀ m move m', Passes moves n m move m' → move.on? = some i →
      Alike i m m') (hrun : run moves n = some n') (h : Alike i n m) :
    ∃ m', run (moves.filter fun move => move.on? != some i) m = some m' ∧ Alike i n' m' := by
  induction moves generalizing n m with
  | nil =>
    cases hrun
    exact ⟨m, rfl, h⟩
  | cons first moves ih =>
    obtain ⟨n₁, hstep, hrun⟩ := Option.bind_eq_some_iff.1 hrun
    have hlater := fun m move m' hpasses => hown m move m' (.tail hstep hpasses)
    by_cases hmove : first.on? = some i
    · rw [List.filter_cons_of_neg (by simp [hmove])]
      exact ih hlater hrun ((hown n first n₁ (.head hstep) hmove).symm.trans h)
    · obtain ⟨m₁, hstep', halike⟩ := h.step hmove hstep
      rw [List.filter_cons_of_pos (by simpa using hmove), run, hstep', Option.bind_some]
      exact ih hlater hrun halike

/-- The connection is outside all along, and what it does changes nothing else. -/
theorem HasOutside.of_passes (h : HasOutside i limit s n)
    (hrefused : ∀ connect k,
      Packet.Leads .v311 limit (s ++ received i moves n) (.connect connect) k →
        ¬ connect.IsAdmitted n.broker.policy)
    (hpasses : Passes moves n m move m') :
    m.binding? i = none ∧ m'.binding? i = none ∧ (move.on? = some i → Alike i m m') := by
  induction moves generalizing n s with
  | nil =>
    obtain ⟨before, after, heq, -⟩ := hpasses
    simp at heq
  | cons first moves ih =>
    obtain ⟨n₁, hstep, hpasses⟩ := hpasses.cases_cons
    rw [received, hstep] at hrefused
    dsimp only at hrefused
    have hnow : ∀ connect k, Packet.Leads .v311 limit s (.connect connect) k →
        ¬ connect.IsAdmitted n.broker.policy := fun connect k hleads =>
      hrefused connect k (hleads.append _)
    have hafter : HasOutside i limit (s ++ n.taken i first n₁) n₁ ∧
        (first.on? = some i → Alike i n n₁) := by
      by_cases hmove : first.on? = some i
      · obtain ⟨houtside, halike⟩ := h.own hnow hmove hstep
        exact ⟨houtside, fun _ => halike⟩
      · exact ⟨h.other hmove hstep, fun heq => absurd heq hmove⟩
    rcases hpasses with ⟨rfl, rfl, rfl⟩ | hlater
    · exact ⟨h.binding?_eq_none, hafter.1.binding?_eq_none, hafter.2⟩
    · refine ih hafter.1 ?_ hlater
      rw [(lasts_of_step hstep).policy, List.append_assoc]
      exact hrefused

/-- A connection whose stream does not start with a CONNECT that is let in leaves no trace, whatever
the broker is like when it is opened, and whatever else goes on. -/
theorem leavesNoTrace_of_refused {now capacity : Nat}
    (haccept : n.connections[i]? = some (Connection.accept n.broker.limits now capacity))
    (hrefused : ∀ connect k, Packet.Leads .v311 n.broker.limits.maxPacketSize (received i moves n)
      (.connect connect) k → ¬ connect.IsAdmitted n.broker.policy)
    (hrun : run moves n = some n') : LeavesNoTrace i moves n n' := by
  have houtside : HasOutside i n.broker.limits.maxPacketSize [] n :=
    ⟨_, haccept, Connection.isOutside_accept ..⟩
  have hpassed : ∀ m move m', Passes moves n m move m' →
      m.binding? i = none ∧ m'.binding? i = none ∧ (move.on? = some i → Alike i m m') :=
    fun m move m' hpasses => houtside.of_passes hrefused hpasses
  constructor
  case turns =>
    intro m move m' hpasses hmove
    obtain ⟨hbefore, -, halike⟩ := hpassed m move m' hpasses
    exact ⟨(halike (Move.on?_of_turn? hmove)).broker, words_of_unbound hbefore hmove⟩
  case unbound => exact fun m move m' hpasses => (hpassed m move m' hpasses).2.1
  case without =>
    obtain ⟨m, hm, halike⟩ :=
      run_without (fun m move m' hpasses => (hpassed m move m' hpasses).2.2) hrun (.refl i n)
    exact ⟨m, hm, halike.broker, halike.others⟩

/-- A CONNECT of a level that no broker serves, with the client id of somebody else. -/
def intruder : Connect := { Connect.plain .v311 [0x78] with protocolLevel := 9 }

theorem not_isAdmitted_intruder (policy : Limits × Option Authenticator) :
    ¬ intruder.IsAdmitted policy := by
  rintro ⟨made, accepted, h⟩
  cases h

/-- The CONNECT comes in, and is refused. -/
def intruding : List Move :=
  [.client 1
      { capacity := 64
        held := [0x10, 13, 0, 4, 0x4d, 0x51, 0x54, 0x54, 9, 2, 0, 0, 0, 1, 0x78] }
      { capacity := 64 }] ++ List.replicate 4 (.step 1 0 false)

theorem leavesNoTrace_of_refused_intruder :
    ∃ n n', run (willing ++ [.step 0 0 false, .step 0 0 false, .accept 0 64])
        (start {}) = some n ∧
      n.connections[1]? = some (Connection.accept n.broker.limits 0 64) ∧
      received 1 intruding n = [0x10, 13, 0, 4, 0x4d, 0x51, 0x54, 0x54, 9, 2, 0, 0, 0, 1, 0x78] ∧
      run intruding n = some n' ∧ (n'.binding? 0).isSome = true ∧
      LeavesNoTrace 1 intruding n n' := by
  have hend : (run (willing ++ [.step 0 0 false, .step 0 0 false]) (start {})).map (fun n =>
      (n.connections.length, (n.step (.accept 0 64)).map fun n =>
        (received 1 intruding n, (run intruding n).map fun n' => (n'.binding? 0).isSome))) =
      some (1, some ([0x10, 13, 0, 4, 0x4d, 0x51, 0x54, 0x54, 9, 2, 0, 0, 0, 1, 0x78],
        some true)) := by
    decide +kernel
  obtain ⟨n₀, hn₀, hfacts⟩ := Option.map_eq_some_iff.1 hend
  obtain ⟨hlength, hfacts⟩ := Prod.mk.inj hfacts
  obtain ⟨n, hn, hfacts⟩ := Option.map_eq_some_iff.1 hfacts
  obtain ⟨hreceived, hrun⟩ := Prod.mk.inj hfacts
  obtain ⟨n', hn', hbound⟩ := Option.map_eq_some_iff.1 hrun
  have hopened : run (willing ++ [.step 0 0 false, .step 0 0 false, .accept 0 64])
      (start {}) = some n := by
    rw [show (willing ++ [Move.step 0 0 false, .step 0 0 false, .accept 0 64]) =
      (willing ++ [.step 0 0 false, .step 0 0 false]) ++ [.accept 0 64] from rfl, run_append, hn₀,
      Option.bind_some, run, hn]
    rfl
  have hlimits := ((start_sound {} none _).of_run hopened).limits_eq
  cases hn
  have haccept : (n₀.connections ++ [Connection.accept n₀.broker.limits 0 64])[1]? =
      some (Connection.accept n₀.broker.limits 0 64) :=
    hlength ▸ List.getElem?_concat_length
  refine ⟨_, n', hopened, haccept, hreceived, hn', hbound, ?_⟩
  refine leavesNoTrace_of_refused haccept (fun connect k hleads => ?_) hn'
  rw [hreceived, hlimits] at hleads
  have hfirst : Packet.Leads .v311 1048576
      [0x10, 13, 0, 4, 0x4d, 0x51, 0x54, 0x54, 9, 2, 0, 0, 0, 1, 0x78] (.connect intruder) 15 :=
    ⟨by decide +kernel, by decide, by decide +kernel⟩
  cases (hleads.unique hfirst).1
  exact not_isAdmitted_intruder _

end Network

end MqttBroker
