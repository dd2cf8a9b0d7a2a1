import MqttBroker.Proofs.Session.Regular
/-!
A client that answers all it is sent, and when the writer waits for it all the same. A PUBLISH is
taken from the outbox before there is a slot for it, and a PUBREL behind it in the outbox waits
until there is; where only released messages fill the window, neither comes first.
-/

namespace MqttBroker

/-- The PUBLISH of a message calls for what the message waits for. -/
theorem InFlight.answer?_publish {e : InFlight} {a : Answer} {p : Publish}
    (hstage : e.stage = .sent) (hqos : p.qos = e.publication.qos)
    (hid : p.packetId = some e.packetId) (ha : e.awaits = some a) :
    (Packet.publish p).answer? = some a := by
  unfold awaits at ha
  rw [hstage] at ha
  rw [Packet.answer?, hqos, hid]
  cases h : e.publication.qos <;> rw [h] at ha <;> cases ha <;> rfl

theorem Redelivery.answer?_packet_of_mem {w : Window} {e : InFlight} {a : Answer}
    (he : e ∈ w.entries) (ha : e.awaits = some a) :
    ∃ r ∈ w.redelivery, r.packet.answer? = some a := by
  refine ⟨_, List.mem_map.2 ⟨e, he, rfl⟩, ?_⟩
  cases hstage : e.stage with
  | sent => exact InFlight.answer?_publish hstage rfl rfl ha
  | released =>
    unfold InFlight.awaits at ha
    rw [hstage] at ha
    cases h : e.publication.qos <;> rw [h] at ha <;> cases ha
    rfl

/-- What a client at the other end of the connection still has to answer. -/
structure Dues where
  /-- For packets that have been written. -/
  owed : List Answer := []
  /-- For the packet that is being written. -/
  coming : Option Answer := none
deriving DecidableEq

namespace Dues

open Tenancy (Move)

/-- A packet has reached the client as soon as it is written whole. -/
def advance (a : Dues) (old new : Writer.Phase) : Dues :=
  match old.begun new with
  | some frame => { a with coming := Answer.toFrame frame }
  | none =>
    if old.isWriting && !new.isWriting then
      if new.isEnding then { a with coming := none }
      else { owed := a.owed ++ a.coming.toList, coming := none }
    else a

def erase (a : Dues) (answer : Answer) : Dues := { a with owed := a.owed.erase answer }

def note (t : Tenancy) (move : Move) (t' : Tenancy) (a : Dues) : Dues :=
  match move with
  | .arrive _ => {}
  | .ack id => a.erase (.pubAck id)
  | .receive id | .abandon id => a.erase (.pubRec id)
  | .complete id => a.erase (.pubComp id)
  | .write .. => match t.writer?, t'.writer? with
    | some w, some w' => a.advance w.phase w'.phase
    | _, _ => a
  | _ => a

section

variable {a : Dues} {old new : Writer.Phase} {ans : Answer}

theorem mem_advance (h : old.Continues new) (hans : ans ∈ a.owed ∨ a.coming = some ans) :
    ans ∈ (a.advance old new).owed ∨ (a.advance old new).coming = some ans := by
  unfold advance
  rw [h.begun, h.going]
  dsimp only
  split
  · refine .inl (List.mem_append.2 (hans.imp_right fun hcoming => ?_))
    rw [hcoming]
    exact List.mem_singleton_self ans
  · exact hans

theorem advance_of_begun {frame : Bytes} (h : old.begun new = some frame) :
    a.advance old new = { a with coming := Answer.toFrame frame } := by
  rw [advance, h]

theorem advance_of_idle (hold : old.isWriting = false) (hbegun : old.begun new = none) :
    a.advance old new = a := by
  rw [advance, hbegun, hold]
  rfl

theorem isWriting_of_advance (h : a.coming.isSome = true → old.isWriting = true)
    (hcoming : (a.advance old new).coming.isSome = true) : new.isWriting = true := by
  unfold advance at hcoming
  split at hcoming
  · next hbegun => exact Writer.Phase.isWriting_of_begun hbegun
  · split at hcoming
    · split at hcoming <;> cases hcoming
    · next hstay =>
      rw [h hcoming] at hstay
      simpa using hstay

end

end Dues

namespace Tenancy

variable {t t' : Tenancy} {move : Move} {x : Tenant} {a : Dues} {ans : Answer}

/-- The answer is owed or will be: the packet that calls for it has been written, is being written,
is to be sent again, or is in the outbox. -/
inductive Expected (t : Tenancy) (a : Dues) (ans : Answer) : Prop where
  | owed (h : ans ∈ a.owed)
  | coming (h : a.coming = some ans)
  | resent {r : Redelivery} (hr : r ∈ t.left) (h : r.packet.answer? = some ans)
  | queued {bytes : Bytes} (hbytes : .control bytes ∈ t.session.outbox.items)
    (h : Answer.toFrame bytes = some ans)

/-- A connection with a writer that has looked up what to send again, and no reason to close. -/
def IsUp (t : Tenancy) : Prop :=
  ∃ x w, t.tenant = some x ∧ x.reason = none ∧ x.writer = some w ∧ w.phase ≠ .starting

structure Responsive (t : Tenancy) (a : Dues) : Prop where
  expected : t.IsUp → ∀ e ∈ t.session.window.entries, ∀ ans, e.awaits = some ans → t.Expected a ans
  coming : a.coming.isSome = true → ∃ w, t.writer? = some w ∧ w.phase.isWriting = true

namespace Expected

theorem erase (h : t.Expected a ans) {other : Answer} (hne : ans ≠ other) :
    t.Expected (a.erase other) ans := by
  cases h with
  | owed h => exact .owed ((List.mem_erase_of_ne hne).2 h)
  | coming h => exact .coming h
  | resent hr h => exact .resent hr h
  | queued hbytes h => exact .queued hbytes h

/-- More items in the outbox, and the same writer. -/
theorem mono (h : t.Expected a ans) (hwriter : t'.writer? = t.writer?)
    (hitems : t.session.outbox.items ⊆ t'.session.outbox.items) : t'.Expected a ans := by
  cases h with
  | owed h => exact .owed h
  | coming h => exact .coming h
  | resent hr h => exact .resent (by rwa [left_congr hwriter]) h
  | queued hbytes h => exact .queued (hitems hbytes) h

/-- While nothing is being written or left to send again, an answer that is not owed is called for
by a packet in the outbox. -/
theorem owed_or_queued (h : t.Expected a ans) (hcoming : a.coming = none) (hleft : t.left = []) :
    ans ∈ a.owed ∨
      ∃ bytes, .control bytes ∈ t.session.outbox.items ∧ Answer.toFrame bytes = some ans := by
  cases h with
  | owed h => exact .inl h
  | coming h => cases hcoming.symm.trans h
  | resent hr =>
    rw [hleft] at hr
    cases hr
  | queued hbytes h => exact .inr ⟨_, hbytes, h⟩

/-- Taking a message out of the outbox changes nothing, as no answer is expected from there. -/
theorem taken (h : t.Expected a ans) (hcoming : a.coming = none) (hleft : t.left = [])
    {p : Publication} {rest : List Outgoing} (hitems : t.session.outbox.items = .publish p :: rest)
    (hsession : t'.session = Writer.behind t.session rest) {coming : Option Answer} :
    t'.Expected { a with coming } ans := by
  rcases h.owed_or_queued hcoming hleft with howed | ⟨bytes, hbytes, hframe⟩
  · exact .owed howed
  · rw [hitems] at hbytes
    have hbehind : .control bytes ∈ rest := (List.mem_cons.1 hbytes).resolve_left nofun
    exact .queued (by rw [hsession]; exact hbehind) hframe

/-- The packet that is taken out of the outbox is the one that is being written. -/
theorem taken_control (h : t.Expected a ans) (hcoming : a.coming = none) (hleft : t.left = [])
    {frame : Bytes} {rest : List Outgoing}
    (hitems : t.session.outbox.items = .control frame :: rest)
    (hsession : t'.session = Writer.behind t.session rest) :
    t'.Expected { a with coming := Answer.toFrame frame } ans := by
  rcases h.owed_or_queued hcoming hleft with howed | ⟨bytes, hbytes, hframe⟩
  · exact .owed howed
  · rw [hitems] at hbytes
    rcases List.mem_cons.1 hbytes with heq | hbehind
    · cases heq
      exact .coming hframe
    · exact .queued (by rw [hsession]; exact hbehind) hframe

/-- The packet that was the next to be sent again is the one that is being written. -/
theorem resending (h : t.Expected a ans) (hcoming : a.coming = none) {r : Redelivery}
    {left : List Redelivery} (hleft : t.left = r :: left) (hleft' : t'.left = left)
    (hsession : t'.session = t.session) :
    t'.Expected { a with coming := r.packet.answer? } ans := by
  cases h with
  | owed h => exact .owed h
  | coming h => cases hcoming.symm.trans h
  | @resent r' hr h =>
    rw [hleft] at hr
    rcases List.mem_cons.1 hr with rfl | hlater
    · exact .coming h
    · exact .resent (by rwa [hleft']) h
  | queued hbytes h => exact .queued (by rwa [hsession]) h

end Expected

theorem not_isUp_of_reason (hx : t.tenant = some x) (hreason : x.reason.isSome = true) :
    ¬ t.IsUp := by
  rintro ⟨x', w, hx', hnone, -⟩
  cases hx.symm.trans hx'
  rw [hnone] at hreason
  cases hreason

theorem not_isUp_close (x : Tenant) (reason : CloseReason) (session : Session) :
    ¬ IsUp { session, tenant := some (x.close reason) } :=
  not_isUp_of_reason rfl (x.isSome_reason_close reason)

theorem isUp_of_tenant_eq (h : t'.IsUp) (htenant : t.tenant = t'.tenant) : t.IsUp := by
  obtain ⟨x, w, hx, hrest⟩ := h
  exact ⟨x, w, htenant.trans hx, hrest⟩

namespace Responsive

theorem fresh (clientId : String) (capacity : Nat) : Responsive (fresh clientId capacity) {} := by
  refine ⟨?_, nofun⟩
  rintro ⟨_, _, ⟨⟩, -⟩

theorem coming_congr (h : Responsive t a) (hwriter : t'.writer? = t.writer?)
    (hsome : a.coming.isSome = true) : ∃ w, t'.writer? = some w ∧ w.phase.isWriting = true := by
  rw [hwriter]
  exact h.coming hsome

/-- A move after which no writer is up, and none is at work. -/
theorem of_down (hup : ¬ t.IsUp) (hcoming : a.coming = none) : Responsive t a := by
  refine ⟨fun h => absurd h hup, fun h => ?_⟩
  rw [hcoming] at h
  cases h

theorem offer (h : Responsive t a) (m : Message) :
    Responsive { t with session := (t.session.offer m).1 } a := by
  rcases t.session.offer_cases m with heq | heq | ⟨qos, heq⟩
  · rw [heq]
    exact h
  · rw [heq]
    exact h
  · rw [heq]
    refine ⟨fun hup e he ans hans => ?_, h.coming⟩
    exact (h.expected hup e he ans hans).mono rfl (List.subset_append_left _ _)

theorem settle (h : Responsive t a) (hregular : t.Regular) {p : InFlight → Bool} {id : UInt16}
    {ans : Answer} {window? : Option Window} (hremoves : t.session.window.Removes p window?)
    (hp : ∀ e, p e = true → e.packetId = id) (hans : ∀ e, e.awaits = some ans → p e = true) :
    Responsive { t with session := (t.session.settle window?).1 } (a.erase ans) := by
  refine ⟨fun hup e he ans' hawaits => ?_, h.coming⟩
  obtain ⟨hmem, hleft⟩ := Session.mem_of_mem_settle hremoves he
  have hkept : p e = false := hleft.elim (fun h => h) (hregular.window.eq_false_of_mem_eraseP hp)
  have hne : ans' ≠ ans := by
    rintro rfl
    exact Bool.false_ne_true (hkept.symm.trans (hans e hawaits))
  refine ((h.expected hup e hmem ans' hawaits).erase hne).mono rfl ?_
  rw [Session.settle_outbox]
  exact List.Subset.refl _

theorem receive (h : Responsive t a) (hregular : t.Regular) (hx : t.tenant = some x)
    (id : UInt16) : Responsive (t.receive x id) (a.erase (.pubRec id)) := by
  rcases t.receive_cases x id with ⟨hnone, heq⟩ | ⟨window, hwindow, heq⟩
  · rw [heq]
    refine ⟨fun hup e he ans hans => (h.expected hup e he ans hans).erase ?_, h.coming⟩
    rintro rfl
    exact Window.awaits_ne_of_received?_eq_none hnone he hans
  rw [heq]
  rcases answer_cases { t with session := { t.session with window } } x
    (.pubRel { packetId := id }) with ⟨reason, heq'⟩ | ⟨bytes, hbytes, heq'⟩
  · rw [heq']
    exact ⟨fun hup => absurd hup (not_isUp_close x reason _),
      h.coming_congr (writer?_congr hx rfl rfl)⟩
  · have hwriter : ∀ session, writer? { session, tenant := some x } = t.writer? :=
      fun _ => writer?_congr hx rfl rfl
    rw [heq']
    refine ⟨fun hup e he ans hans => ?_, ?_⟩
    · rcases hregular.window.awaits_of_received hwindow he with hcomp | ⟨e', he', hsame, hne⟩
      · cases hcomp.symm.trans hans
        exact .queued (List.mem_append_right _ List.mem_cons_self) (Answer.toFrame_encode hbytes)
      · have hold := h.expected (isUp_of_tenant_eq hup hx) e' he' ans (hsame.trans hans)
        have hne' : ans ≠ .pubRec id := by
          rintro rfl
          exact hne (hsame.trans hans)
        exact (hold.erase hne').mono (hwriter _) (List.subset_append_left _ _)
    · exact h.coming_congr (hwriter _)

theorem answer (h : Responsive t a) (hx : t.tenant = some x) (p : Packet) :
    Responsive (t.answer x p) a := by
  rcases t.answer_cases x p with ⟨reason, heq⟩ | ⟨bytes, -, heq⟩
  · rw [heq]
    exact ⟨fun hup => absurd hup (not_isUp_close x reason _),
      h.coming_congr (writer?_congr hx rfl rfl)⟩
  · have hwriter : ∀ session, writer? { session, tenant := some x } = t.writer? :=
      fun _ => writer?_congr hx rfl rfl
    rw [heq]
    refine ⟨fun hup e he ans hans => ?_, ?_⟩
    · have hold := h.expected (isUp_of_tenant_eq hup hx) e he ans hans
      exact hold.mono (hwriter _) (List.subset_append_left _ _)
    · exact h.coming_congr (hwriter _)

variable {env : Writer.Surroundings} {w : Writer} {turn : Writer.Turn}

/-- Where the writer starts on a packet, that packet and what is left call for the answers that were
expected before. -/
theorem expected_write (hw : t.writer? = some w) (hw' : t'.writer? = some turn.writer)
    (hsession' : t'.session = turn.session) (htraffic : Writer.Traffic env t.session w turn)
    (hgoing : turn.writer.phase.isEnding = false)
    (hcoming : w.phase.isWriting = false → a.coming = none)
    (hold : w.phase ≠ .starting →
      ∀ e ∈ t.session.window.entries, ∀ ans, e.awaits = some ans → t.Expected a ans)
    {e : InFlight} (he : e ∈ t'.session.window.entries) (hans : e.awaits = some ans) :
    t'.Expected (a.advance w.phase turn.writer.phase) ans := by
  have hleft : t.left = w.phase.left := by rw [left, hw]; rfl
  have hleft' : t'.left = turn.writer.phase.left := by rw [left, hw']; rfl
  rw [hsession'] at he
  have hbefore (hphase : w.phase ≠ .starting) (he : e ∈ t.session.window.entries) :
      t.Expected a ans := hold hphase e he ans hans
  cases htraffic with
  | idle hitems hwindow hphase =>
    have hadvance : ans ∈ a.owed ∨ a.coming = some ans → _ := Dues.mem_advance hphase
    cases hbefore hphase.started.1 (hwindow ▸ he) with
    | owed hmem => exact (hadvance (.inl hmem)).elim .owed .coming
    | coming hmem => exact (hadvance (.inr hmem)).elim .owed .coming
    | resent hr hmem => exact .resent (by rwa [hleft', hphase.left, ← hleft]) hmem
    | queued hbytes hmem => exact .queued (by rwa [hsession', hitems]) hmem
  | lookUp hphase hsession hnext =>
    rw [hsession] at he
    obtain ⟨r, hr, hanswer⟩ := Redelivery.answer?_packet_of_mem he hans
    exact .resent (by rwa [hleft', hnext]) hanswer
  | stop _ _ _ hnext | giveBack _ _ _ hnext | forsake _ _ _ _ hnext =>
    rw [hnext] at hgoing
    cases hgoing
  | resend hphase hsession hstarts =>
    obtain ⟨bytes, hbytes, hnext⟩ := hstarts.writing hgoing
    rw [Dues.advance_of_begun (by rw [hphase, hnext]; rfl), Answer.toFrame_encode hbytes]
    rw [hsession] at he hsession'
    rw [hphase] at hbefore hcoming hleft
    rw [hnext] at hleft'
    exact (hbefore (by simp) he).resending (hcoming rfl) hleft hleft' hsession'
  | control hphase hitems hsession hnext =>
    rw [Dues.advance_of_begun (by rw [hphase, hnext]; rfl)]
    rw [hsession] at he hsession'
    rw [hphase] at hbefore hcoming hleft
    exact (hbefore (by simp) he).taken_control (hcoming rfl) hleft hitems hsession'
  | transient hphase hitems hsession _ hstarts =>
    obtain ⟨bytes, -, hnext⟩ := hstarts.writing hgoing
    rw [Dues.advance_of_begun (by rw [hphase, hnext]; rfl)]
    rw [hsession] at he hsession'
    rw [hphase] at hbefore hcoming hleft
    exact (hbefore (by simp) he).taken (hcoming rfl) hleft hitems hsession'
  | drop hphase hitems hsession _ hnext =>
    have hbegun : w.phase.begun turn.writer.phase = none := by
      rcases hnext with hnext | hnext <;> rw [hphase, hnext] <;> rfl
    rw [Dues.advance_of_idle (by rw [hphase]; rfl) hbegun]
    rw [hsession] at he hsession'
    rw [hphase] at hbefore hcoming hleft
    exact (hbefore (by simp) he).taken (hcoming rfl) hleft hitems hsession'
  | hold hphase hitems hsession _ _ hnext =>
    rw [Dues.advance_of_idle (by rw [hphase]; rfl) (by rw [hphase, hnext]; rfl)]
    rw [hsession] at he hsession'
    rw [hphase] at hbefore hcoming hleft
    exact (hbefore (by simp) he).taken (hcoming rfl) hleft hitems hsession'
  | reserve hphase hreserve hsession hstarts =>
    obtain ⟨bytes, hbytes, hnext⟩ := hstarts.writing hgoing
    obtain ⟨-, hs', rfl⟩ := Session.reserve?_eq_some hreserve
    rw [Dues.advance_of_begun (by rw [hphase, hnext]; rfl), Answer.toFrame_encode hbytes]
    rw [hsession, hs'] at he hsession'
    rw [hphase] at hbefore hcoming hleft
    rcases List.mem_append.1 he with hmem | hnew
    · have hkept := (hbefore (by simp) hmem).owed_or_queued (hcoming rfl) hleft
      rcases hkept with howed | ⟨_, hbytes, hframe⟩
      · exact .owed howed
      · exact .queued (by rw [hsession']; exact hbytes) hframe
    · cases List.mem_singleton.1 hnew
      exact .coming (InFlight.answer?_publish rfl rfl rfl hans)

theorem write (h : Responsive t a) (hw : t.writer? = some w) (hw' : t'.writer? = some turn.writer)
    (hsession' : t'.session = turn.session) (htraffic : Writer.Traffic env t.session w turn)
    (hup : t'.IsUp → w.phase ≠ .starting → t.IsUp)
    (hgoing : t'.IsUp → turn.writer.phase.isEnding = false) :
    Responsive t' (a.advance w.phase turn.writer.phase) := by
  have hcoming : a.coming.isSome = true → w.phase.isWriting = true := by
    intro hsome
    obtain ⟨w', heq, hwriting⟩ := h.coming hsome
    cases hw.symm.trans heq
    exact hwriting
  have hnone : w.phase.isWriting = false → a.coming = none := by
    intro hidle
    refine Option.not_isSome_iff_eq_none.1 fun hsome => ?_
    exact Bool.false_ne_true (hidle.symm.trans (hcoming hsome))
  refine ⟨fun hup' e he ans hans => ?_, fun hsome => ?_⟩
  · exact expected_write hw hw' hsession' htraffic (hgoing hup') hnone
      (fun hstarted => h.expected (hup hup' hstarted)) he hans
  · exact ⟨turn.writer, hw', Dues.isWriting_of_advance hcoming hsome⟩

theorem isUp_of_write {x : Tenant} (hx : t.tenant = some x) (hw : x.writer = some w)
    (hup : IsUp { session := turn.session, tenant := some (x.after turn) })
    (hstarted : w.phase ≠ .starting) : t.IsUp := by
  obtain ⟨_, _, ⟨⟩, hreason, -⟩ := hup
  refine ⟨x, w, hx, Option.not_isSome_iff_eq_none.1 fun hsome => ?_, hw, hstarted⟩
  have hafter := x.isSome_reason_after turn (.inr hsome)
  rw [hreason] at hafter
  cases hafter

theorem not_isEnding_of_isUp (hregular : t.Regular) (hw : t.writer? = some w) (hup : t.IsUp) :
    w.phase.isEnding = false := by
  obtain ⟨x, w', hx, hreason, hwriter, -⟩ := hup
  have heq : t.writer? = some w' := (writer?_of_tenant hx).trans hwriter
  cases hw.symm.trans heq
  refine Bool.eq_false_iff.2 fun hend => ?_
  have hsome := hregular.ending x w hx hwriter hend
  rw [hreason] at hsome
  cases hsome

theorem step (h : Responsive t a) (hregular : t.Regular) (hstep : t.step move = some t') :
    Responsive t' (Dues.note t move t' a) := by
  have hregular' := hregular.step hstep
  cases goes_of_step hstep with
  | arrive => exact of_down (by rintro ⟨_, _, ⟨⟩, -, ⟨⟩, -⟩) rfl
  | @activate _ x hx hwriter =>
    have hnone : t.writer? = none := (writer?_of_tenant hx).trans hwriter
    refine of_down (by rintro ⟨_, _, ⟨⟩, -, ⟨⟩, hstarted⟩; exact hstarted rfl) ?_
    refine Option.not_isSome_iff_eq_none.1 fun hsome => ?_
    obtain ⟨w, hw, -⟩ := h.coming hsome
    cases hnone.symm.trans hw
  | @close reason =>
    refine ⟨fun hup => ?_, h.coming_congr (t.writer?_close reason)⟩
    obtain ⟨x', -, hx', -⟩ := id hup
    obtain ⟨x, -, rfl⟩ := Option.map_eq_some_iff.1 hx'
    exact absurd hup (not_isUp_of_reason hx' (x.isSome_reason_close reason))
  | offer => exact h.offer _
  | answer hx => exact h.answer hx _
  | @ack id =>
    exact h.settle hregular (t.session.window.removes_ack? id)
      (fun e he => (InFlight.awaits_eq_pubAck.1 (of_decide_eq_true he)).1)
      fun e he => decide_eq_true he
  | receive hx => exact h.receive hregular hx _
  | @abandon id =>
    exact h.settle hregular (t.session.window.removes_abandon? id)
      (fun e he => of_decide_eq_true he)
      fun e he => decide_eq_true (InFlight.awaits_eq_pubRec.1 he).1
  | @complete id =>
    exact h.settle hregular (t.session.window.removes_complete? id)
      (fun e he => (InFlight.awaits_eq_pubComp.1 (of_decide_eq_true he)).1)
      fun e he => decide_eq_true he
  | adjust =>
    exact ⟨fun hup e he ans hans => (h.expected hup e he ans hans).mono rfl (List.Subset.refl _),
      h.coming⟩
  | @write _ _ _ x w turn hx hwriter hacts =>
    have hw : t.writer? = some w := (writer?_of_tenant hx).trans hwriter
    have hw' : writer? { session := turn.session, tenant := some (x.after turn) } =
        some turn.writer := x.after_writer turn
    have hnote := h.write hw hw' rfl (Writer.traffic_of_acts hacts) (isUp_of_write hx hwriter)
      (not_isEnding_of_isUp hregular' hw')
    simp only [Dues.note, hw, hw']
    exact hnote
  | @leave kept x hx hstopped =>
    refine of_down (by rintro ⟨_, _, ⟨⟩, -⟩) ?_
    refine Option.not_isSome_iff_eq_none.1 fun hsome => ?_
    obtain ⟨w, hw, hwriting⟩ := h.coming hsome
    rw [writer?_of_tenant hx] at hw
    rw [hstopped w hw] at hwriting
    cases hwriting

end Responsive

theorem responsive_of_run {clientId : String} {capacity : Nat} {moves : List Move}
    (h : run Dues.note moves (fresh clientId capacity, {}) = some (t, a)) : Responsive t a :=
  (run_induction (I := fun x => x.1.Regular ∧ Responsive x.1 x.2)
    (fun _ _ _ _ hstep hboth => ⟨hboth.1.step hstep, hboth.2.step hboth.1 hstep⟩) h
    ⟨.fresh clientId capacity, .fresh clientId capacity⟩).2

/-- A writer that waits for a slot although the client has answered all that was written: the
window is full, every message in it has been received by the client, and the PUBREL of each is in
the outbox behind the message the writer holds. -/
theorem held_back_of_answered {clientId : String} {capacity : Nat} {moves : List Move} {w : Writer}
    {p : Publication} (h : run Dues.note moves (fresh clientId capacity, {}) = some (t, a))
    (hx : t.tenant = some x) (hreason : x.reason = none) (hw : x.writer = some w)
    (hphase : w.phase = .reserving p true) (hpermit : t.session.slotFreed.permit = false)
    (howed : a.owed = []) :
    w.link.inFlightLimit ≤ t.session.window.size ∧
      ∀ e ∈ t.session.window.entries,
        e.publication.qos = .exactlyOnce ∧ e.stage = .released ∧
          ∃ bytes, .control bytes ∈ t.session.outbox.items ∧
            Answer.toFrame bytes = some (.pubComp e.packetId) := by
  have hregular := regular_of_run h
  have hresponsive := responsive_of_run h
  have hwriter : t.writer? = some w := (writer?_of_tenant hx).trans hw
  have hup : t.IsUp := ⟨x, w, hx, hreason, hw, by rw [hphase]; exact nofun⟩
  constructor
  · refine (hregular.parked w p hwriter hphase).resolve_left fun hfreed => ?_
    exact Bool.false_ne_true (hpermit.symm.trans hfreed)
  intro e he
  obtain ⟨ans, hans⟩ := Option.isSome_iff_exists.1 (hregular.window.awaiting e he)
  cases hresponsive.expected hup e he ans hans with
  | owed hmem =>
    rw [howed] at hmem
    cases hmem
  | coming hmem =>
    obtain ⟨w', hw', hwriting⟩ := hresponsive.coming (by rw [hmem]; rfl)
    cases hwriter.symm.trans hw'
    rw [hphase] at hwriting
    cases hwriting
  | resent hr =>
    rw [left, hwriter, Option.map_some, hphase] at hr
    cases hr
  | @queued bytes hbytes hframe =>
    obtain ⟨id, rfl⟩ := (hregular.controls bytes hbytes).eq_pubComp hframe
    obtain ⟨rfl, hqos, hstage⟩ := InFlight.awaits_eq_pubComp.1 hans
    exact ⟨hqos, hstage, bytes, hbytes, hframe⟩

/-- The client gets one of two messages and answers it with PUBREC. -/
def lockedUpMoves : List Move :=
  [subscribing .exactlyOnce, .arrive narrowLink, .activate 16384,
    .offer (letter 49 .exactlyOnce)] ++ writing 10 ++ [.offer (letter 50 .exactlyOnce)] ++
    writing 3 ++ [.receive 1]

def lockedUpWriter : Writer where
  link := narrowLink
  threshold := 16384
  output := { capacity := 16384 }
  phase := .reserving (.ofMessage (letter 50 .exactlyOnce) .exactlyOnce) true

/-- The PUBREL for the first message waits behind the second one, which waits for its slot. -/
def lockedUp : Tenancy where
  session :=
    { clientId := "a"
      outbox := { items := [.control [98, 2, 0, 1]], capacity := 1000, filled := ⟨true⟩ }
      subscriptions := ⟨[([97], .exactlyOnce)]⟩
      window :=
        { entries :=
            [{ packetId := 1
               stage := .released
               publication := .ofMessage (letter 49 .exactlyOnce) .exactlyOnce }]
          nextId := 2 } }
  tenant := some { link := narrowLink, writer := some lockedUpWriter }

theorem run_lockedUpMoves :
    run Dues.note lockedUpMoves (fresh "a" 1000, {}) = some (lockedUp, {}) := by
  decide +kernel

theorem held_back_of_answered_lockedUp :
    run Dues.note lockedUpMoves (fresh "a" 1000, {}) = some (lockedUp, {}) ∧
      1 ≤ lockedUp.session.window.size ∧
      ∀ e ∈ lockedUp.session.window.entries,
        e.publication.qos = .exactlyOnce ∧ e.stage = .released ∧
          ∃ bytes, .control bytes ∈ lockedUp.session.outbox.items ∧
            Answer.toFrame bytes = some (.pubComp e.packetId) :=
  ⟨run_lockedUpMoves, held_back_of_answered run_lockedUpMoves rfl rfl rfl rfl rfl rfl⟩

/-- A client that answers everything can leave its writer stuck. -/
theorem not_progress_of_answered :
    ¬ ∀ (clientId : String) (capacity : Nat) (moves : List Move) (t : Tenancy) (a : Dues)
        (x : Tenant) (w : Writer) (p : Publication),
      run Dues.note moves (fresh clientId capacity, {}) = some (t, a) → t.tenant = some x →
      x.reason = none → x.writer = some w → a.owed = [] → a.coming = none →
      ¬ (w.phase = .reserving p true ∧ t.session.slotFreed.permit = false) := by
  intro hclaim
  exact hclaim "a" 1000 lockedUpMoves lockedUp {} _ lockedUpWriter _ run_lockedUpMoves rfl rfl rfl
    rfl rfl ⟨rfl, rfl⟩

end Tenancy

end MqttBroker
