import MqttBroker.Proofs.Broker.Routing
/-!
What the broker's operations do to sessions that are not the caller's: they put messages into
outboxes, by dispatching them, and nothing else. The identifiers that wait for PUBREL and the will
are left to the connection that is bound to the session.
-/

namespace MqttBroker

/-- What is left to the session's own connection. -/
def Session.own (s : Session) : String × List UInt16 × Option Message :=
  (s.clientId, s.incoming, s.will)

theorem Session.own_offer (s : Session) (m : Message) : (s.offer m).1.own = s.own := by
  rcases s.offer_cases m with heq | heq | ⟨qos, heq⟩ <;> rw [heq]
  rfl

namespace Broker

variable {b b' b'' b₁ b₂ : Broker} {ids : List SessionId} {id home : SessionId}
  {ms ms' : List Message}

/-- Dispatches the messages in turn. -/
def dispatchAll (b : Broker) (ms : List Message) : Broker :=
  ms.foldl (fun b m => (b.dispatch m).1) b

/-- From `b` to `b'` each session but `home` has become what it is once the messages were
dispatched. -/
def Dispatches (home : SessionId) (ms : List Message) (b b' : Broker) : Prop :=
  ∀ id ≠ home, b'.session id = (b.dispatchAll ms).session id

/-- From `b` to `b'` no session is made, registered or dropped, and of all sessions but those in
`ids` nothing is changed that is their own. -/
structure Frames (ids : List SessionId) (b b' : Broker) : Prop where
  registry : b'.registry = b.registry
  limits : b'.limits = b.limits
  sessions : b'.sessions.length = b.sessions.length
  clientId : ∀ id, (b'.session id).clientId = (b.session id).clientId
  own : ∀ id ∉ ids, (b'.session id).own = (b.session id).own

/-- The same where messages are dispatched, and nothing else is done to sessions other than
`home`. -/
structure Carries (ids : List SessionId) (home : SessionId) (ms : List Message) (b b' : Broker) :
    Prop extends Frames ids b b' where
  dispatches : b.Filed → Dispatches home ms b b'

namespace Frames

theorem refl (ids : List SessionId) (b : Broker) : Frames ids b b :=
  ⟨rfl, rfl, rfl, fun _ => rfl, fun _ _ => rfl⟩

theorem trans (h : Frames ids b b') (h' : Frames ids b' b'') : Frames ids b b'' where
  registry := h'.registry.trans h.registry
  limits := h'.limits.trans h.limits
  sessions := h'.sessions.trans h.sessions
  clientId id := (h'.clientId id).trans (h.clientId id)
  own id hid := (h'.own id hid).trans (h.own id hid)

theorem mono {ids' : List SessionId} (h : Frames ids b b') (hids : ids ⊆ ids') :
    Frames ids' b b' :=
  { h with own := fun id hid => h.own id fun hmem => hid (hids hmem) }

theorem of_session (ids : List SessionId) (b : Broker) (id : SessionId) {f : Session → Session}
    (hclientId : (f (b.session id)).clientId = (b.session id).clientId)
    (hown : id ∉ ids → (f (b.session id)).own = (b.session id).own) :
    Frames ids b (b.updateSession id f) := by
  refine ⟨rfl, rfl, length_updateSession .., ?_, fun id' hid' => ?_⟩
  · exact session_updateSession_congr Session.clientId hclientId
  · by_cases heq : id = id'
    · exact session_updateSession_congr Session.own (hown (heq ▸ hid')) id'
    · rw [session_updateSession_of_ne heq]

theorem of_closeOwner (ids : List SessionId) (b : Broker) (id : SessionId) (reason : CloseReason) :
    Frames ids b (b.closeOwner id reason) := by
  unfold closeOwner
  split
  · exact ⟨rfl, rfl, rfl, fun _ => rfl, fun _ _ => rfl⟩
  · exact refl ids b

theorem of_deliver (ids : List SessionId) (b : Broker) (id : SessionId) (m : Message) :
    Frames ids b (b.deliver id m).1 := by
  have hoffer := (b.session id).own_offer m
  unfold deliver
  split
  · exact refl ids b
  · next s hs =>
    rw [hs] at hoffer
    exact of_session ids b id (congrArg Prod.fst hoffer) fun _ => hoffer
  · dsimp only
    split
    · exact of_closeOwner ..
    · exact refl ids b

theorem of_dispatch (ids : List SessionId) (b : Broker) (m : Message) :
    Frames ids b (b.dispatch m).1 := by
  unfold dispatch
  refine List.foldlRecOn (motive := fun x : Broker × Nat => Frames ids b x.1) _ _ (refl ids b) ?_
  exact fun x h entry _ => h.trans (of_deliver ids x.1 entry.2 m)

theorem of_shutdown (ids : List SessionId) (b : Broker) : Frames ids b b.shutdown := by
  unfold shutdown
  refine List.foldlRecOn (motive := Frames ids b) _ _ (refl ids b) ?_
  exact fun b' h entry _ => h.trans (of_closeOwner ids b' entry.2 _)

end Frames

theorem Frames.filed (h : Frames ids b b') (hfiled : b.Filed) : b'.Filed :=
  hfiled.mono h.registry (Nat.le_of_eq h.sessions.symm) fun id _ => h.clientId id

/-- What messages make of a session is a matter of that session and of the registry. -/
theorem session_dispatchAll_congr (h₁ : b₁.Filed) (h₂ : b₂.Filed)
    (hregistry : b₁.registry = b₂.registry) (hsame : b₁.session id = b₂.session id)
    (ms : List Message) : (b₁.dispatchAll ms).session id = (b₂.dispatchAll ms).session id := by
  induction ms generalizing b₁ b₂ with
  | nil => exact hsame
  | cons m ms ih =>
    have hframes₁ := Frames.of_dispatch [] b₁ m
    have hframes₂ := Frames.of_dispatch [] b₂ m
    have hlisted : b₁.listed = b₂.listed := congrArg (List.map Prod.snd) hregistry
    refine ih (hframes₁.filed h₁) (hframes₂.filed h₂) ?_ ?_
    · rw [hframes₁.registry, hframes₂.registry, hregistry]
    · by_cases hid : id ∈ b₁.listed
      · exact session_dispatch_eq h₁ h₂ m hid (hlisted ▸ hid) hsame
      · rw [(fansOut_listed h₁ m).passedOver id fun hmem => absurd hmem hid,
          (fansOut_listed h₂ m).passedOver id fun hmem => absurd (hlisted ▸ hmem) hid, hsame]

theorem frames_dispatchAll (b : Broker) (ms : List Message) : Frames [] b (b.dispatchAll ms) := by
  induction ms generalizing b with
  | nil => exact .refl [] b
  | cons m ms ih => exact (Frames.of_dispatch [] b m).trans (ih _)

namespace Carries

theorem refl (ids : List SessionId) (home : SessionId) (b : Broker) : Carries ids home [] b b :=
  ⟨.refl ids b, fun _ _ _ => rfl⟩

theorem trans (h : Carries ids home ms b b') (h' : Carries ids home ms' b' b'') :
    Carries ids home (ms ++ ms') b b'' := by
  refine ⟨h.toFrames.trans h'.toFrames, fun hfiled id hid => ?_⟩
  have hframes := frames_dispatchAll b ms
  have hsame := session_dispatchAll_congr (h.filed hfiled) (hframes.filed hfiled)
    (h.registry.trans hframes.registry.symm) (h.dispatches hfiled id hid) ms'
  rw [h'.dispatches (h.filed hfiled) id hid, hsame, dispatchAll, dispatchAll, dispatchAll,
    List.foldl_append]

theorem of_session (ids : List SessionId) (b : Broker) (home : SessionId) {f : Session → Session}
    (hclientId : (f (b.session home)).clientId = (b.session home).clientId)
    (hown : home ∉ ids → (f (b.session home)).own = (b.session home).own) :
    Carries ids home [] b (b.updateSession home f) :=
  ⟨.of_session ids b home hclientId hown, fun _ _ hid => session_updateSession_of_ne hid.symm f⟩

theorem of_leases (ids : List SessionId) (home : SessionId) (b : Broker) (leases : List Lease) :
    Carries ids home [] b { b with leases } :=
  ⟨⟨rfl, rfl, rfl, fun _ => rfl, fun _ _ => rfl⟩, fun _ _ _ => rfl⟩

theorem of_dispatch (ids : List SessionId) (home : SessionId) (b : Broker) (m : Message) :
    Carries ids home [m] b (b.dispatch m).1 := ⟨.of_dispatch ids b m, fun _ _ _ => rfl⟩

end Carries

end Broker

end MqttBroker
