import Mathlib.Data.List.Nodup
import MqttBroker.Broker.Basic
/-! What the registry says after a client id was given another session, or none. -/

namespace MqttBroker

section

variable {α β : Type} [BEq α] [LawfulBEq α]

theorem lookup_filter_of_ne {entries : List (α × β)} {key key' : α} (hne : key ≠ key') :
    (entries.filter (·.1 != key')).lookup key = entries.lookup key := by
  induction entries with
  | nil => rfl
  | cons entry entries ih =>
    rw [List.lookup_cons]
    by_cases hentry : entry.1 = key'
    · have hother : (key == entry.1) = false := beq_false_of_ne (hentry ▸ hne)
      rw [List.filter_cons_of_neg (by simpa using hentry), hother, ih]
    · rw [List.filter_cons_of_pos (by simpa using hentry), List.lookup_cons, ih]

theorem lookup_filter_self (entries : List (α × β)) (key : α) :
    (entries.filter (·.1 != key)).lookup key = none := by
  refine List.lookup_eq_none_iff.2 fun entry hmem => ?_
  rw [bne_comm]
  exact (List.mem_filter.1 hmem).2

end

namespace Broker

variable {b b' : Broker} {id id' : SessionId} {key : String}

/-- The lease of the connection that owns the client id's session. -/
def owner? (b : Broker) (clientId : String) : Option LeaseId :=
  (b.lookup clientId).bind fun id => (b.session id).owner

theorem takeOver_cases (b : Broker) (clientId : String) :
    b.owner? clientId = none ∧ b.takeOver clientId = (b, none) ∨
      ∃ l, b.takeOver clientId = (b.closeLease l .takenOver, some l) := by
  unfold owner? takeOver
  cases b.lookup clientId with
  | none => exact .inl ⟨rfl, rfl⟩
  | some id =>
    dsimp only [Option.bind_some]
    cases (b.session id).owner with
    | none => exact .inl ⟨rfl, rfl⟩
    | some l => exact .inr ⟨l, rfl⟩

theorem lookup_congr (h : b'.registry = b.registry) (key : String) :
    b'.lookup key = b.lookup key := congrArg (List.lookup key) h

theorem mem_of_lookup (h : b.lookup key = some id) : (key, id) ∈ b.registry := by
  obtain ⟨before, after, hregistry, -⟩ := List.lookup_eq_some_iff.1 h
  exact hregistry ▸ List.mem_append_right before (List.mem_cons_self ..)

theorem lookup_register : (b.register id).lookup (b.session id).clientId = some id := by
  rw [lookup, register, List.lookup_append, lookup_filter_self, List.lookup_cons,
    beq_self_eq_true]
  rfl

theorem lookup_register_of_ne (hne : key ≠ (b.session id).clientId) :
    (b.register id).lookup key = b.lookup key := by
  rw [lookup, register, List.lookup_append, lookup_filter_of_ne hne, List.lookup_cons,
    beq_false_of_ne hne]
  exact Option.or_none

theorem mem_register (hmem : (key, id') ∈ (b.register id).registry) :
    (key, id') ∈ b.registry ∨ key = (b.session id).clientId ∧ id' = id := by
  rcases List.mem_append.1 hmem with hold | hnew
  · exact .inl (List.mem_filter.1 hold).1
  · exact .inr (Prod.mk.inj (List.mem_singleton.1 hnew))

theorem lookup_unregister_of_ne (hne : key ≠ (b.session id).clientId) :
    (b.unregister id).lookup key = b.lookup key := by
  unfold unregister
  split
  · exact lookup_filter_of_ne hne
  · rfl

theorem lookup_unregister_self (h : b.lookup (b.session id).clientId = some id) :
    (b.unregister id).lookup (b.session id).clientId = none := by
  have hregistered : b.isRegistered id = true := by rw [isRegistered, h, beq_self_eq_true]
  rw [unregister, if_pos hregistered]
  exact lookup_filter_self ..

/-- What stands for another session stays. -/
theorem lookup_unregister_of_lookup (h : b.lookup key = some id) (hne : id' ≠ id) :
    (b.unregister id').lookup key = some id := by
  by_cases hkey : key = (b.session id').clientId
  · have hregistered : b.isRegistered id' = false := by
      rw [isRegistered, ← hkey, h]
      exact beq_false_of_ne fun heq => hne (Option.some.inj heq).symm
    rw [unregister, hregistered]
    exact h
  · exact (lookup_unregister_of_ne hkey).trans h

theorem registry_unregister_subset : (b.unregister id).registry ⊆ b.registry := by
  unfold unregister
  split
  · exact List.filter_subset_self _
  · exact List.Subset.refl _

/-- Nothing but the registry is touched. -/
theorem unregister_eq (b : Broker) (id : SessionId) :
    ∃ registry, b.unregister id = { b with registry } := by
  unfold unregister
  split
  · exact ⟨_, rfl⟩
  · exact ⟨b.registry, rfl⟩

theorem openSession_cases (b : Broker) (clientId : String) (clean : Bool) :
    (∃ id, b.lookup clientId = some id ∧ b.openSession clientId clean = (b, id, true)) ∨
      b.openSession clientId clean =
        (register { b with
            sessions := b.sessions ++ [Session.fresh clientId b.limits.outboxCapacity] }
          b.sessions.length, b.sessions.length, false) := by
  unfold openSession
  cases clean with
  | true => exact .inr rfl
  | false =>
    rw [if_neg Bool.false_ne_true]
    split
    · next id hid => exact .inl ⟨id, hid, rfl⟩
    · exact .inr rfl

/-- The registry is a map from client ids to sessions, each under its own client id. -/
structure Filed (b : Broker) : Prop where
  keys : (b.registry.map Prod.fst).Nodup
  known : ∀ entry ∈ b.registry, entry.2 < b.sessions.length
  named : ∀ entry ∈ b.registry, (b.session entry.2).clientId = entry.1

/-- The registered sessions. -/
def listed (b : Broker) : List SessionId := b.registry.map Prod.snd

namespace Filed

theorem nodup_listed (h : b.Filed) : b.listed.Nodup := by
  refine List.Nodup.map_on ?_ (List.Nodup.of_map Prod.fst h.keys)
  intro entry hentry entry' hentry' hid
  have hkey : entry.1 = entry'.1 := by
    rw [← h.named entry hentry, ← h.named entry' hentry', hid]
  exact Prod.ext hkey hid

theorem lt_of_listed (h : b.Filed) (hid : id ∈ b.listed) : id < b.sessions.length := by
  obtain ⟨entry, hentry, rfl⟩ := List.mem_map.1 hid
  exact h.known entry hentry

theorem lt_of_lookup (h : b.Filed) (hkey : b.lookup key = some id) : id < b.sessions.length :=
  h.known (key, id) (mem_of_lookup hkey)

theorem filter (h : b.Filed) (p : String × SessionId → Bool) :
    Filed { b with registry := b.registry.filter p } where
  keys := h.keys.sublist (List.filter_sublist.map Prod.fst)
  known entry hentry := h.known entry (List.mem_filter.1 hentry).1
  named entry hentry := h.named entry (List.mem_filter.1 hentry).1

theorem unregister (h : b.Filed) (id : SessionId) : (b.unregister id).Filed := by
  unfold Broker.unregister
  split
  · exact h.filter _
  · exact h

theorem register (h : b.Filed) (hid : id < b.sessions.length) : (b.register id).Filed where
  keys := by
    have hdropped := (h.filter (·.1 != (b.session id).clientId)).keys
    rw [Broker.register, List.map_append]
    refine hdropped.append (List.nodup_singleton _) fun key hkey hnew => ?_
    obtain ⟨entry, hentry, rfl⟩ := List.mem_map.1 hkey
    have hother := (List.mem_filter.1 hentry).2
    rw [List.mem_singleton.1 hnew, bne_self_eq_false] at hother
    cases hother
  known := by
    rintro ⟨key, id'⟩ hentry
    rcases mem_register hentry with hold | ⟨-, rfl⟩
    · exact h.known _ hold
    · exact hid
  named := by
    rintro ⟨key, id'⟩ hentry
    rcases mem_register hentry with hold | ⟨rfl, rfl⟩
    · exact h.named _ hold
    · rfl

/-- More sessions may be there, and those that were keep their client ids. -/
theorem mono (h : b.Filed) (hregistry : b'.registry = b.registry)
    (hsessions : b.sessions.length ≤ b'.sessions.length)
    (hclientId : ∀ id < b.sessions.length,
      (b'.session id).clientId = (b.session id).clientId) : b'.Filed where
  keys := hregistry ▸ h.keys
  known entry hentry :=
    Nat.lt_of_lt_of_le (h.known entry (hregistry ▸ hentry)) hsessions
  named entry hentry :=
    have hold : entry ∈ b.registry := hregistry ▸ hentry
    (hclientId _ (h.known entry hold)).trans (h.named entry hold)

end Filed

end Broker

end MqttBroker
