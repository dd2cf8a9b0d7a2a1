import Mathlib.Data.List.Infix
import MqttBroker.Proofs.Writer.Traffic
/-!
What a writer gives to the transport. The bytes the transport takes are those of the frames the
writer has begun, in order. A frame that is larger than the buffer goes past it and can be out in
part when the connection is asked to close; then the rest of it is given up, and the last packet
follows the part.
-/

namespace MqttBroker

/-! ### Frames and parts of them -/

/-- Some of the frames in their order, each of them whole, and behind them at most a part of one
more. -/
def IsFramed (frames : List Bytes) (bytes : Bytes) : Prop :=
  ∃ whole part, bytes = whole.flatten ++ part ∧
    (part = [] ∧ whole.Sublist frames ∨
      ∃ frame, (whole ++ [frame]).Sublist frames ∧ part <+: frame ∧ part ≠ frame)

section

variable {frames frames' : List Bytes} {bytes : Bytes}

theorem IsFramed.sublist (h : IsFramed frames bytes) (hsub : frames.Sublist frames') :
    IsFramed frames' bytes := by
  obtain ⟨whole, part, hbytes, hpart⟩ := h
  refine ⟨whole, part, hbytes, hpart.imp (fun h => ⟨h.1, h.2.trans hsub⟩) ?_⟩
  rintro ⟨frame, hframe, h⟩
  exact ⟨frame, hframe.trans hsub, h⟩

theorem IsFramed.cons (h : IsFramed frames bytes) (frame : Bytes) :
    IsFramed (frame :: frames) (frame ++ bytes) := by
  obtain ⟨whole, part, rfl, hpart⟩ := h
  refine ⟨frame :: whole, part, by rw [List.flatten_cons, List.append_assoc], ?_⟩
  refine hpart.imp (fun h => ⟨h.1, h.2.cons_cons frame⟩) ?_
  rintro ⟨last, hlast, h⟩
  exact ⟨last, hlast.cons_cons frame, h⟩

theorem prefix_append_cases {front back : Bytes} (h : bytes <+: front ++ back) :
    bytes <+: front ∧ bytes ≠ front ∨ ∃ rest, bytes = front ++ rest ∧ rest <+: back := by
  rcases Nat.lt_or_ge bytes.length front.length with hlt | hle
  · refine .inl ⟨?_, fun heq => Nat.ne_of_lt hlt (congrArg List.length heq)⟩
    exact List.prefix_of_prefix_length_le h (List.prefix_append _ _) (Nat.le_of_lt hlt)
  · obtain ⟨rest, rfl⟩ := List.prefix_of_prefix_length_le (List.prefix_append _ _) h hle
    exact .inr ⟨rest, rfl, (List.prefix_append_right_inj front).1 h⟩

/-- Wherever a stream of frames is cut, it is framed up to there. -/
theorem isFramed_of_cut (h : bytes <+: frames.flatten) : IsFramed frames bytes := by
  induction frames generalizing bytes with
  | nil => exact ⟨[], [], List.prefix_nil.1 h, .inl ⟨rfl, .slnil⟩⟩
  | cons frame frames ih =>
    rw [List.flatten_cons] at h
    rcases prefix_append_cases h with ⟨hpart, hne⟩ | ⟨rest, rfl, hrest⟩
    · exact ⟨[], bytes, rfl, .inr ⟨frame, List.singleton_sublist.2 List.mem_cons_self, hpart, hne⟩⟩
    · exact (ih hrest).cons frame

/-- What is out at all begins with one of the frames, or is the beginning of one. -/
theorem IsFramed.exists_comparable (h : IsFramed frames bytes) (hbytes : bytes ≠ []) :
    ∃ frame ∈ frames, frame ≠ [] ∧ (frame <+: bytes ∨ bytes <+: frame) := by
  obtain ⟨whole, part, rfl, hpart⟩ := h
  induction whole with
  | nil =>
    rcases hpart with ⟨rfl, -⟩ | ⟨frame, hframe, hprefix, -⟩
    · exact absurd rfl hbytes
    · refine ⟨frame, List.singleton_sublist.1 hframe, ?_, .inr hprefix⟩
      rintro rfl
      exact hbytes (List.prefix_nil.1 hprefix)
  | cons frame whole ih =>
    by_cases hnone : frame = []
    · subst hnone
      refine ih (hpart.imp (fun h => ⟨h.1, List.sublist_of_cons_sublist h.2⟩) ?_) hbytes
      rintro ⟨last, hlast, h⟩
      exact ⟨last, List.sublist_of_cons_sublist hlast, h⟩
    · refine ⟨frame, ?_, hnone, .inl ?_⟩
      · rcases hpart with ⟨-, hsub⟩ | ⟨last, hsub, -⟩
        · exact hsub.subset List.mem_cons_self
        · exact hsub.subset List.mem_cons_self
      · rw [List.flatten_cons, List.append_assoc]
        exact List.prefix_append _ _

theorem isFramed_nil_iff : IsFramed [] bytes ↔ bytes = [] := by
  constructor
  · rintro ⟨whole, part, rfl, ⟨rfl, hwhole⟩ | ⟨frame, hframe, -⟩⟩
    · rw [List.sublist_nil.1 hwhole]
      rfl
    · cases (List.append_eq_nil_iff.1 (List.sublist_nil.1 hframe)).2
  · rintro rfl
    exact isFramed_of_cut (List.prefix_refl _)

/-- The first frame is left out, or is out whole, or the only one that is out in part. -/
theorem isFramed_cons_iff (frame : Bytes) : IsFramed (frame :: frames) bytes ↔
    IsFramed frames bytes ∨ (∃ rest, frame ++ rest = bytes ∧ IsFramed frames rest) ∨
      bytes <+: frame ∧ bytes ≠ frame := by
  constructor
  · rintro ⟨whole, part, rfl, ⟨rfl, hsub⟩ | ⟨last, hsub, hlast⟩⟩
    · rcases List.sublist_cons_iff.1 hsub with hsub | ⟨rest, rfl, hrest⟩
      · exact .inl ⟨whole, [], rfl, .inl ⟨rfl, hsub⟩⟩
      · exact .inr (.inl ⟨_, (List.append_assoc ..).symm, rest, [], rfl, .inl ⟨rfl, hrest⟩⟩)
    · rcases List.sublist_cons_iff.1 hsub with hsub | ⟨rest, heq, hsub⟩
      · exact .inl ⟨whole, part, rfl, .inr ⟨last, hsub, hlast⟩⟩
      · cases whole with
        | nil =>
          cases heq
          exact .inr (.inr hlast)
        | cons first whole =>
          cases heq
          exact .inr (.inl ⟨_, (List.append_assoc ..).symm, whole, part, rfl,
            .inr ⟨last, hsub, hlast⟩⟩)
  · rintro (hframed | ⟨rest, rfl, hframed⟩ | ⟨hpart, hne⟩)
    · exact hframed.sublist (List.sublist_cons_self frame frames)
    · exact hframed.cons frame
    · exact ⟨[], bytes, rfl, .inr ⟨frame, List.singleton_sublist.2 List.mem_cons_self, hpart, hne⟩⟩

theorem exists_append_iff (P : Bytes → Prop) (frame bytes : Bytes) :
    (∃ rest, frame ++ rest = bytes ∧ P rest) ↔ frame <+: bytes ∧ P (bytes.drop frame.length) := by
  constructor
  · rintro ⟨rest, rfl, h⟩
    rw [List.drop_left]
    exact ⟨List.prefix_append _ _, h⟩
  · rintro ⟨⟨rest, rfl⟩, h⟩
    rw [List.drop_left] at h
    exact ⟨rest, rfl, h⟩

end

/-- Decided frame by frame. -/
instance : (frames : List Bytes) → (bytes : Bytes) → Decidable (IsFramed frames bytes)
  | [], _ => decidable_of_iff _ isFramed_nil_iff.symm
  | frame :: frames, bytes =>
    have (rest : Bytes) : Decidable (IsFramed frames rest) := instDecidableIsFramed frames rest
    have := decidable_of_iff' _ (exists_append_iff (IsFramed frames) frame bytes)
    decidable_of_iff' _ (isFramed_cons_iff frame)

example : IsFramed [[1, 2], [3, 4, 5]] [1, 2, 3] ∧ ¬IsFramed [[1, 2], [3, 4, 5]] [1, 3] := by
  decide

/-! ### The buffer -/

namespace Output

variable {o o' : Output} {rest rest' sent : Bytes} {room : Nat}

/-- The transport has taken no more of the buffer than there is. -/
def IsSound (o : Output) : Prop := o.taken ≤ o.buffer.length

theorem isSound_drain (o : Output) (room : Nat) : (o.drain room).1.IsSound := by
  unfold drain
  dsimp only
  split
  · exact Nat.le_refl 0
  · next hmore => exact Nat.le_of_not_le hmore

theorem capacity_drain (o : Output) (room : Nat) : (o.drain room).1.capacity = o.capacity := by
  unfold drain
  dsimp only
  split <;> rfl

/-- Nothing is lost on the way to the transport. -/
theorem pending_drain (o : Output) (room : Nat) :
    (o.drain room).2 ++ (o.drain room).1.pending = o.pending := by
  unfold drain
  dsimp only
  split
  · next hall =>
    have hlength : o.pending.length ≤ room := by
      simp only [pending, List.length_drop, List.length_take] at hall ⊢
      omega
    rw [List.take_of_length_le hlength]
    exact List.append_nil _
  · have hrest : pending { o with taken := o.taken + (o.pending.take room).length } =
        o.pending.drop (o.pending.take room).length := by
      rw [pending, pending, List.drop_drop]
    rw [hrest, List.length_take]
    rcases Nat.le_total room o.pending.length with hle | hle
    · rw [Nat.min_eq_left hle, List.take_append_drop]
    · rw [Nat.min_eq_right hle, List.take_of_length_le hle, List.drop_length, List.append_nil]

/-- What a step of writing `rest` can do. -/
inductive Accepts (o : Output) (rest : Bytes) (room : Nat) : Output × Bytes × Bytes → Prop where
  /-- The buffer has to be emptied first. -/
  | drain (hbuffer : o.buffer ≠ []) :
    Accepts o rest room ((o.drain room).1, rest, (o.drain room).2)
  | pass (hbuffer : o.buffer = []) (hlarge : o.capacity ≤ rest.length) :
    Accepts o rest room (o, rest.drop room, rest.take room)
  | keep : Accepts o rest room ({ o with buffer := o.buffer ++ rest }, [], [])

theorem accepts_accept (o : Output) (rest : Bytes) (room : Nat) :
    o.Accepts rest room (o.accept rest room) := by
  unfold accept
  split
  · next hcrowded =>
    have hbuffer := (Bool.and_eq_true_iff.1 hcrowded).1
    exact .drain (by simpa using hbuffer)
  · next hcalm =>
    split
    · next hlarge =>
      refine .pass ?_ hlarge
      simp only [isCrowded, Bool.and_eq_true, Bool.not_eq_true', List.isEmpty_eq_false_iff,
        decide_eq_true_eq, not_and, Nat.not_lt] at hcalm
      by_contra hbuffer
      have hle := hcalm hbuffer
      have hpos := List.length_pos_iff.2 hbuffer
      omega
    · exact .keep

namespace Accepts

theorem isSound (h : o.Accepts rest room (o', rest', sent)) (hsound : o.IsSound) :
    o'.IsSound := by
  cases h with
  | drain => exact o.isSound_drain room
  | pass => exact hsound
  | keep =>
    rw [IsSound, List.length_append]
    exact Nat.le_add_right_of_le hsound

theorem capacity (h : o.Accepts rest room (o', rest', sent)) : o'.capacity = o.capacity := by
  cases h with
  | drain => exact o.capacity_drain room
  | pass | keep => rfl

theorem unsent (h : o.Accepts rest room (o', rest', sent)) (hsound : o.IsSound) :
    sent ++ (o'.pending ++ rest') = o.pending ++ rest := by
  cases h with
  | drain => rw [← List.append_assoc, o.pending_drain room]
  | pass hbuffer =>
    have hnone : o.pending = [] := by rw [pending, hbuffer, List.drop_nil]
    rw [hnone, List.nil_append, List.nil_append, List.take_append_drop]
  | keep =>
    rw [pending, pending, List.drop_append_of_le_length hsound, List.append_nil]
    rfl

end Accepts

end Output

/-! ### A connection's writer from its start -/

/-- A record of what a connection's writer has written. -/
structure Transcript where
  /-- The frames that were begun. -/
  frames : List Bytes := []
  /-- The last packet, once the writer has turned to it. -/
  farewell : Bytes := []
  /-- The bytes the transport took. -/
  sent : Bytes := []
deriving DecidableEq

/-- The last packet a writer turns to as it goes from one phase to the next. -/
def Writer.Phase.parted : Phase → Phase → Bytes
  | closing .., _ | stopped, _ => []
  | _, closing farewell _ => farewell
  | _, _ => []

namespace Writer.Phase

variable {a b : Phase}

theorem parted_of_going (h : b.isEnding = false) : a.parted b = [] := by
  cases b <;> first | (cases a <;> rfl) | cases h

theorem parted_of_isEnding (h : a.isEnding = true) : a.parted b = [] := by
  cases a <;> first | rfl | cases h

theorem parted_stopped : a.parted stopped = [] := by
  cases a <;> rfl

theorem parted_closing (h : a.isEnding = false) (farewell : Bytes) (deadline : Nat) :
    a.parted (closing farewell deadline) = farewell := by
  cases a <;> first | rfl | cases h

theorem begun_writing (h : a.isWriting = false) (frame : Bytes) (size : Nat)
    (left : Option (List Redelivery)) : a.begun (writing frame size left) = some frame := by
  cases a <;> first | rfl | cases h

theorem begun_of_not_writing (h : b.isWriting = false) : a.begun b = none := by
  cases b <;> first | (cases a <;> rfl) | cases h

end Writer.Phase

/-- Notes a step of the writer. -/
def Transcript.follow (a : Transcript) (w : Writer) (turn : Writer.Turn) : Transcript where
  frames := a.frames ++ (w.phase.begun turn.writer.phase).toList
  farewell := a.farewell ++ w.phase.parted turn.writer.phase
  sent := a.sent ++ turn.sent

/-- What goes out of the frames before the last packet does. -/
inductive Transcript.GivesUp (a : Transcript) (capacity : Nat) : Bytes → Prop where
  | nothing : GivesUp a capacity a.frames.flatten
  /-- A frame of which nothing was out. -/
  | whole {before : List Bytes} {frame : Bytes} (hframes : a.frames = before ++ [frame]) :
    GivesUp a capacity before.flatten
  /-- What is left of a frame that was out in part. -/
  | rest {before : List Bytes} {cut lost : Bytes} (hframes : a.frames = before ++ [cut ++ lost])
    (hcut : cut ≠ []) (hlost : capacity ≤ lost.length) :
    GivesUp a capacity (before.flatten ++ cut)

theorem Transcript.follow_eq {a : Transcript} {w : Writer} {turn : Writer.Turn}
    (hbegun : w.phase.begun turn.writer.phase = none)
    (hparted : w.phase.parted turn.writer.phase = []) :
    a.follow w turn = { a with sent := a.sent ++ turn.sent } := by
  rw [follow, hbegun, hparted, Option.toList_none, List.append_nil, List.append_nil]

theorem Transcript.GivesUp.congr {a a' : Transcript} {capacity : Nat} {stream : Bytes}
    (h : a.GivesUp capacity stream) (hframes : a'.frames = a.frames) :
    a'.GivesUp capacity stream := by
  cases h with
  | nothing => exact hframes ▸ .nothing
  | whole hbefore => exact .whole (hframes.trans hbefore)
  | rest hbefore hcut hlost => exact .rest (hframes.trans hbefore) hcut hlost

namespace Writer

/-- Where the writer is in the stream of its frames. -/
inductive Emits (w : Writer) (a : Transcript) : Prop where
  | between (hgoing : w.phase.isEnding = false) (hwriting : w.phase.isWriting = false)
    (hfarewell : a.farewell = []) (hsent : a.sent ++ w.output.pending = a.frames.flatten)
  /-- In a frame, of which `cut` is out; then there is nothing in the buffer. -/
  | within {rest cut : Bytes} {size : Nat} {left : Option (List Redelivery)} {before : List Bytes}
    (hphase : w.phase = .writing rest size left) (hfarewell : a.farewell = [])
    (hframes : a.frames = before ++ [cut ++ rest]) (hcut : cut = [] ∨ w.output.buffer = [])
    (hsent : a.sent ++ w.output.pending = before.flatten ++ cut)
  | parting {rest stream : Bytes} {deadline : Nat} (hphase : w.phase = .closing rest deadline)
    (hstream : a.GivesUp w.output.capacity stream)
    (hsent : a.sent ++ (w.output.pending ++ rest) = stream ++ a.farewell)
  | stopped {stream : Bytes} (hphase : w.phase = .stopped)
    (hstream : a.GivesUp w.output.capacity stream) (hsent : a.sent <+: stream ++ a.farewell)

structure Emission (w : Writer) (a : Transcript) : Prop where
  sound : w.output.IsSound
  capacity : w.output.capacity = max w.threshold 1024
  emits : w.Emits a

variable {env : Surroundings} {s : Session} {w : Writer} {turn : Turn} {a : Transcript}

/-- The step gives nothing to the transport and puts nothing into the buffer. -/
structure IsQuiet (w : Writer) (turn : Turn) : Prop where
  output : turn.writer.output = w.output
  threshold : turn.writer.threshold = w.threshold
  sent : turn.sent = []

theorem isQuiet_put (w : Writer) (s : Session) (p : Packet) (left : Option (List Redelivery)) :
    w.IsQuiet (w.put s p left) := by
  unfold put
  split <;> exact ⟨rfl, rfl, rfl⟩

theorem isQuiet_begin (w : Writer) (s : Session) (item : Outgoing) :
    w.IsQuiet (w.begin s item) := by
  unfold begin
  split
  · exact ⟨rfl, rfl, rfl⟩
  · split
    · exact ⟨rfl, rfl, rfl⟩
    · split
      · exact isQuiet_put ..
      · exact ⟨rfl, rfl, rfl⟩

namespace Emission

theorem start (link : Link) (threshold : Nat) : (start link threshold).Emission {} where
  sound := Nat.le_refl 0
  capacity := rfl
  emits := .between rfl rfl rfl rfl

/-- The last packet comes with the end. -/
theorem farewell_eq_nil (h : w.Emission a) (hgoing : w.phase.isEnding = false) :
    a.farewell = [] := by
  cases h.emits with
  | between _ _ hfarewell | within _ hfarewell => exact hfarewell
  | parting hphase | stopped hphase =>
    rw [hphase] at hgoing
    cases hgoing

theorem sent_between (h : w.Emission a) (hgoing : w.phase.isEnding = false)
    (hwriting : w.phase.isWriting = false) : a.sent ++ w.output.pending = a.frames.flatten := by
  cases h.emits with
  | between _ _ _ hsent => exact hsent
  | within hphase =>
    rw [hphase] at hwriting
    cases hwriting
  | parting hphase | stopped hphase =>
    rw [hphase] at hgoing
    cases hgoing

theorem of_quiet (h : w.Emission a) (hquiet : w.IsQuiet turn)
    (hemits : turn.writer.Emits (a.follow w turn)) : turn.writer.Emission (a.follow w turn) where
  sound := hquiet.output ▸ h.sound
  capacity := by rw [hquiet.output, hquiet.threshold, h.capacity]
  emits := hemits

/-- A step between two frames. -/
theorem goOn (h : w.Emission a) (hgoing : w.phase.isEnding = false)
    (hwriting : w.phase.isWriting = false) (hquiet : w.IsQuiet turn)
    (hgoing' : turn.writer.phase.isEnding = false)
    (hwriting' : turn.writer.phase.isWriting = false) :
    turn.writer.Emission (a.follow w turn) := by
  refine h.of_quiet hquiet (.between hgoing' hwriting' ?_ ?_)
  · rw [Transcript.follow, h.farewell_eq_nil hgoing, Phase.parted_of_going hgoing']
    rfl
  · simp only [Transcript.follow, hquiet.sent, hquiet.output, Phase.begun_of_not_writing hwriting',
      List.append_nil, Option.toList_none]
    exact h.sent_between hgoing hwriting

theorem begins (h : w.Emission a) (hgoing : w.phase.isEnding = false)
    (hwriting : w.phase.isWriting = false) (hquiet : w.IsQuiet turn) {frame : Bytes} {size : Nat}
    {left : Option (List Redelivery)} (hnext : turn.writer.phase = .writing frame size left) :
    turn.writer.Emission (a.follow w turn) := by
  have hframes : (a.follow w turn).frames = a.frames ++ [[] ++ frame] := by
    rw [Transcript.follow, hnext, Phase.begun_writing hwriting]
    rfl
  refine h.of_quiet hquiet (.within hnext ?_ hframes (.inl rfl) ?_)
  · rw [Transcript.follow, h.farewell_eq_nil hgoing, hnext, Phase.parted_of_going rfl]
    rfl
  · simp only [Transcript.follow, hquiet.sent, hquiet.output, List.append_nil]
    exact h.sent_between hgoing hwriting

/-- What is out when the writer stops in the middle is what goes out of the frames. -/
theorem givesUp (h : w.Emission a) (hgoing : w.phase.isEnding = false) (hheld : w.IsHeldUp) :
    a.GivesUp w.output.capacity (a.sent ++ w.output.pending) := by
  cases h.emits with
  | between _ _ _ hsent => exact hsent ▸ .nothing
  | @within rest cut _ _ before hphase _ hframes hcut hsent =>
    rw [hsent]
    by_cases hnone : cut = []
    · subst hnone
      rw [List.append_nil]
      exact .whole hframes
    · -- Part of the frame is out, so the buffer is empty, and only a rest that goes past the buffer
      -- can be held up.
      have hbuffer := hcut.resolve_left hnone
      have hneeds := hheld _ _ _ hphase
      simp only [Output.needsRoom, Output.isCrowded, hbuffer, List.isEmpty_nil, Bool.not_true,
        Bool.false_and, Bool.false_or, decide_eq_true_eq] at hneeds
      exact .rest hframes hnone hneeds
  | parting hphase | stopped hphase =>
    rw [hphase] at hgoing
    cases hgoing

theorem ends (h : w.Emission a) (hgoing : w.phase.isEnding = false) (hheld : w.IsHeldUp)
    (hquiet : w.IsQuiet turn) (hend : turn.writer.phase.isEnding = true) :
    turn.writer.Emission (a.follow w turn) := by
  have hframes : (a.follow w turn).frames = a.frames := by
    rw [Transcript.follow, Phase.begun_of_isEnding hend]
    exact List.append_nil _
  have hsent : (a.follow w turn).sent = a.sent := by
    rw [Transcript.follow, hquiet.sent]
    exact List.append_nil _
  have hgives := (h.givesUp hgoing hheld).congr hframes
  rw [← hquiet.output] at hgives
  refine h.of_quiet hquiet ?_
  cases hnext : turn.writer.phase with
  | closing farewell deadline =>
    refine .parting hnext hgives ?_
    rw [hsent, hquiet.output, Transcript.follow, h.farewell_eq_nil hgoing, hnext,
      Phase.parted_closing hgoing, List.append_assoc]
    rfl
  | stopped =>
    refine .stopped hnext hgives ?_
    rw [hsent, hquiet.output, List.append_assoc]
    exact List.prefix_append _ _
  | _ =>
    rw [hnext] at hend
    cases hend

theorem starts (h : w.Emission a) (hgoing : w.phase.isEnding = false)
    (hwriting : w.phase.isWriting = false) (hquiet : w.IsQuiet turn) {p : Packet}
    {left : Option (List Redelivery)} (hstarts : w.Starts p left turn) :
    turn.writer.Emission (a.follow w turn) := by
  rcases hstarts with ⟨bytes, -, hnext⟩ | ⟨hnext, -⟩
  · exact h.begins hgoing hwriting hquiet hnext
  · refine h.ends hgoing (fun _ _ _ hphase => ?_) hquiet (by rw [hnext]; rfl)
    rw [hphase] at hwriting
    cases hwriting

/-- A step that goes on with a frame. -/
theorem within (h : w.Emission a) {rest : Bytes} {size : Nat} {left : Option (List Redelivery)}
    (hphase : w.phase = .writing rest size left) :
    ∃ before cut, a.farewell = [] ∧ a.frames = before ++ [cut ++ rest] ∧
      (cut = [] ∨ w.output.buffer = []) ∧ a.sent ++ w.output.pending = before.flatten ++ cut := by
  cases h.emits with
  | between _ hwriting =>
    rw [hphase] at hwriting
    cases hwriting
  | within hphase' hfarewell hframes hcut hsent =>
    cases hphase.symm.trans hphase'
    exact ⟨_, _, hfarewell, hframes, hcut, hsent⟩
  | parting hphase' | stopped hphase' => cases hphase.symm.trans hphase'

theorem write (h : w.Emission a) {rest rest' sent : Bytes} {size room : Nat}
    {left : Option (List Redelivery)} {output : Output} (hphase : w.phase = .writing rest size left)
    (haccepts : w.output.Accepts rest room (output, rest', sent)) (hrest : rest' ≠ []) :
    ({ w with output, phase := .writing rest' size left } : Writer).Emission
      { a with sent := a.sent ++ sent } := by
  obtain ⟨before, cut, hfarewell, hframes, hcut, hsent⟩ := h.within hphase
  refine ⟨haccepts.isSound h.sound, haccepts.capacity.trans h.capacity, ?_⟩
  cases haccepts with
  | drain hbuffer =>
    -- The buffer still holds earlier frames, so nothing of this one is out.
    refine .within rfl hfarewell hframes (.inl (hcut.resolve_right hbuffer)) ?_
    rw [List.append_assoc, w.output.pending_drain room, hsent]
  | pass hbuffer =>
    have hnone : w.output.pending = [] := by rw [Output.pending, hbuffer, List.drop_nil]
    have hframes' : a.frames = before ++ [cut ++ rest.take room ++ rest.drop room] := by
      rw [hframes, List.append_assoc, List.take_append_drop]
    refine .within rfl hfarewell hframes' (.inr hbuffer) ?_
    rw [hnone, List.append_nil] at hsent ⊢
    rw [hsent, List.append_assoc]
  | keep => exact absurd rfl hrest

theorem written (h : w.Emission a) {rest sent : Bytes} {size room : Nat}
    {left : Option (List Redelivery)} {output : Output} (hphase : w.phase = .writing rest size left)
    (haccepts : w.output.Accepts rest room (output, [], sent)) {w' : Writer}
    (houtput : w'.output = output) (hthreshold : w'.threshold = w.threshold)
    (hgoing : w'.phase.isEnding = false) (hwriting : w'.phase.isWriting = false) :
    w'.Emission { a with sent := a.sent ++ sent } := by
  obtain ⟨before, cut, hfarewell, hframes, -, hsent⟩ := h.within hphase
  have hunsent := haccepts.unsent h.sound
  refine ⟨houtput ▸ haccepts.isSound h.sound, ?_, .between hgoing hwriting hfarewell ?_⟩
  · rw [houtput, haccepts.capacity, hthreshold, h.capacity]
  · rw [List.append_nil] at hunsent
    rw [houtput, List.append_assoc, hunsent, ← List.append_assoc, hsent, hframes,
      List.flatten_append, List.flatten_singleton, List.append_assoc]

theorem flush (h : w.Emission a) (hphase : w.phase = .flushing) (room : Nat) :
    ({ w with output := (w.output.drain room).1, phase := .flushing } : Writer).Emission
      { a with sent := a.sent ++ (w.output.drain room).2 } := by
  have hgoing : w.phase.isEnding = false := by rw [hphase]; rfl
  refine ⟨w.output.isSound_drain room, (w.output.capacity_drain room).trans h.capacity,
    .between rfl rfl (h.farewell_eq_nil hgoing) ?_⟩
  rw [List.append_assoc, w.output.pending_drain room]
  exact h.sent_between hgoing (by rw [hphase]; rfl)

theorem parting (h : w.Emission a) {rest : Bytes} {deadline : Nat}
    (hphase : w.phase = .closing rest deadline) :
    ∃ stream, a.GivesUp w.output.capacity stream ∧
      a.sent ++ (w.output.pending ++ rest) = stream ++ a.farewell := by
  cases h.emits with
  | between hgoing =>
    rw [hphase] at hgoing
    cases hgoing
  | parting hphase' hstream hsent =>
    cases hphase.symm.trans hphase'
    exact ⟨_, hstream, hsent⟩
  | within hphase' | stopped hphase' => cases hphase.symm.trans hphase'

theorem finish (h : w.Emission a) {rest rest' sent : Bytes} {room deadline : Nat} {output : Output}
    (hphase : w.phase = .closing rest deadline)
    (hsent : w.output.accept rest room = (output, rest', sent) ∨
      rest' = rest ∧ w.output.drain room = (output, sent)) :
    ({ w with output, phase := .closing rest' deadline } : Writer).Emission
      { a with sent := a.sent ++ sent } := by
  obtain ⟨stream, hstream, htaken⟩ := h.parting hphase
  have hmoved : output.IsSound ∧ output.capacity = w.output.capacity ∧
      sent ++ (output.pending ++ rest') = w.output.pending ++ rest := by
    rcases hsent with haccept | ⟨rfl, hdrain⟩
    · have haccepts := w.output.accepts_accept rest room
      rw [haccept] at haccepts
      exact ⟨haccepts.isSound h.sound, haccepts.capacity, haccepts.unsent h.sound⟩
    · obtain rfl : (w.output.drain room).1 = output := congrArg Prod.fst hdrain
      obtain rfl : (w.output.drain room).2 = sent := congrArg Prod.snd hdrain
      refine ⟨w.output.isSound_drain room, w.output.capacity_drain room, ?_⟩
      rw [← List.append_assoc, w.output.pending_drain room]
  obtain ⟨hsound, hcapacity, hunsent⟩ := hmoved
  have hstream' : Transcript.GivesUp { a with sent := a.sent ++ sent } output.capacity stream :=
    (hcapacity ▸ hstream).congr rfl
  refine ⟨hsound, hcapacity.trans h.capacity, .parting rfl hstream' ?_⟩
  rw [List.append_assoc, hunsent]
  exact htaken

theorem stop (h : w.Emission a) {rest : Bytes} {deadline : Nat}
    (hphase : w.phase = .closing rest deadline) :
    ({ w with phase := .stopped } : Writer).Emission a := by
  obtain ⟨stream, hstream, htaken⟩ := h.parting hphase
  exact ⟨h.sound, h.capacity, .stopped rfl hstream (htaken ▸ List.prefix_append _ _)⟩

end Emission

theorem isGoing_resume (w : Writer) (s : Session) (left : Option (List Redelivery)) :
    (w.resume s left).isEnding = false ∧ (w.resume s left).isWriting = false := by
  cases left with
  | some left => exact ⟨rfl, rfl⟩
  | none => rcases w.settle_cases s with h | h <;> rw [resume, h] <;> exact ⟨rfl, rfl⟩

theorem Emission.begin (h : w.Emission a) (hphase : w.phase = .taking false) (s : Session)
    (item : Outgoing) :
    (w.begin s item).writer.Emission (a.follow w (w.begin s item)) := by
  have hgoing : w.phase.isEnding = false := by rw [hphase]; rfl
  have hwriting : w.phase.isWriting = false := by rw [hphase]; rfl
  have hquiet := w.isQuiet_begin s item
  generalize hturn : w.begin s item = turn at hquiet ⊢
  unfold Writer.begin at hturn
  split at hturn
  · subst hturn
    exact h.begins hgoing hwriting hquiet rfl
  split at hturn
  · have hsettle : (w.settle s).isEnding = false ∧ (w.settle s).isWriting = false :=
      w.isGoing_resume s none
    subst hturn
    exact h.goOn hgoing hwriting hquiet hsettle.1 hsettle.2
  split at hturn
  · subst hturn
    exact h.starts hgoing hwriting hquiet (starts_put ..)
  · subst hturn
    exact h.goOn hgoing hwriting hquiet rfl rfl

/-- Every step of a writer keeps to its stream. -/
theorem emission_of_acts (h : w.Emission a) (hacts : Acts env s w turn) :
    turn.writer.Emission (a.follow w turn) := by
  have hfollow : ∀ {turn' : Turn}, w.phase.begun turn'.writer.phase = none →
      w.phase.parted turn'.writer.phase = [] →
        turn'.writer.Emission { a with sent := a.sent ++ turn'.sent } →
          turn'.writer.Emission (a.follow w turn') := by
    intro turn' hbegun hparted hkept
    rwa [Transcript.follow_eq hbegun hparted]
  have hnowhere : w.phase.isWriting = false → w.IsHeldUp := by
    intro hwriting rest size left hphase
    rw [hphase] at hwriting
    cases hwriting
  cases hacts with
  | lookUp hphase | resent hphase | flushed hphase | wake hphase | park hphase
  | wakeReserving hphase | parkReserving hphase =>
    have hgoing : w.phase.isEnding = false := by rw [hphase]; rfl
    have hwriting : w.phase.isWriting = false := by rw [hphase]; rfl
    exact h.goOn hgoing hwriting ⟨rfl, rfl, rfl⟩ rfl rfl
  | resend hphase | reserve hphase =>
    have hgoing : w.phase.isEnding = false := by rw [hphase]; rfl
    have hwriting : w.phase.isWriting = false := by rw [hphase]; rfl
    exact h.starts hgoing hwriting (isQuiet_put ..) (starts_put ..)
  | take hphase => exact h.begin hphase _ _
  | lose hphase hheld | interrupt hphase hreason hheld =>
    have hgoing : w.phase.isEnding = false := by
      cases hw : w.phase <;> first | rfl | (rw [hw] at hphase; cases hphase)
    exact h.ends hgoing hheld ⟨rfl, rfl, rfl⟩ rfl
  | leave hphase | giveBack hphase | forsake hphase =>
    have hgoing : w.phase.isEnding = false := by rw [hphase]; rfl
    exact h.ends hgoing (hnowhere (by rw [hphase]; rfl)) ⟨rfl, rfl, rfl⟩ rfl
  | @write rest rest' sent size room left output hphase haccept hrest =>
    have haccepts := w.output.accepts_accept rest room
    rw [haccept] at haccepts
    refine hfollow (by rw [hphase]; rfl) (by rw [hphase]; rfl) ?_
    exact h.write hphase haccepts hrest
  | @written rest sent size room left output w' hphase haccept hw' =>
    have haccepts := w.output.accepts_accept rest room
    rw [haccept] at haccepts
    obtain ⟨hgoing, hwriting⟩ := w'.isGoing_resume s left
    refine hfollow (Phase.begun_of_not_writing hwriting) (Phase.parted_of_going hgoing) ?_
    subst hw'
    exact h.written hphase haccepts rfl rfl hgoing hwriting
  | flush hphase =>
    refine hfollow (by rw [hphase]; rfl) (by rw [hphase]; rfl) ?_
    exact h.flush hphase _
  | finish hphase hsent =>
    obtain ⟨room, hsent⟩ := hsent
    refine hfollow (by rw [hphase]; rfl) (by rw [hphase]; rfl) ?_
    exact h.finish hphase hsent
  | stop hphase =>
    refine hfollow (by rw [hphase]; rfl) (by rw [hphase]; rfl) ?_
    show Emission _ { a with sent := a.sent ++ [] }
    rw [List.append_nil]
    exact h.stop hphase

end Writer

/-! ### What comes out -/

/-- Whole frames, a part of a frame that is larger than a buffer of that capacity, and at least a
part of the last packet behind it. -/
def Transcript.IsTorn (a : Transcript) (capacity : Nat) : Prop :=
  ∃ before cut lost tail, a.frames = before ++ [cut ++ lost] ∧ cut ≠ [] ∧
    capacity ≤ lost.length ∧ tail ≠ [] ∧ tail <+: a.farewell ∧
      a.sent = before.flatten ++ cut ++ tail

theorem Transcript.GivesUp.prefix_flatten {a : Transcript} {capacity : Nat} {stream : Bytes}
    (h : a.GivesUp capacity stream) : stream <+: a.frames.flatten := by
  cases h with
  | nothing => exact List.prefix_refl _
  | whole hframes =>
    rw [hframes, List.flatten_append]
    exact List.prefix_append _ _
  | rest hframes =>
    rw [hframes, List.flatten_append, List.flatten_singleton, ← List.append_assoc]
    exact List.prefix_append _ _

theorem Transcript.GivesUp.framed {a : Transcript} {capacity : Nat} {stream : Bytes}
    (h : a.GivesUp capacity stream) (hsent : a.sent <+: stream ++ a.farewell) :
    IsFramed (a.frames ++ [a.farewell]) a.sent ∨ a.IsTorn capacity := by
  have hflatten : ∀ frames : List Bytes, frames.flatten ++ a.farewell =
      (frames ++ [a.farewell]).flatten := fun frames => by
    rw [List.flatten_append, List.flatten_singleton]
  cases h with
  | nothing =>
    rw [hflatten] at hsent
    exact .inl (isFramed_of_cut hsent)
  | @whole before frame hframes =>
    rw [hflatten] at hsent
    refine .inl ((isFramed_of_cut hsent).sublist ?_)
    rw [hframes]
    exact (List.sublist_append_left before [frame]).append_right _
  | @rest before cut lost hframes hcut hlost =>
    -- Up to the part the frames are not torn; what stands behind the part tears them.
    have hstream : before.flatten ++ cut <+: a.frames.flatten :=
      prefix_flatten (.rest hframes hcut hlost)
    have hframed : a.sent <+: before.flatten ++ cut → IsFramed (a.frames ++ [a.farewell]) a.sent :=
      fun hpart => (isFramed_of_cut (hpart.trans hstream)).sublist
        (List.sublist_append_left _ _)
    rcases prefix_append_cases hsent with ⟨hpart, -⟩ | ⟨tail, htail, hfarewell⟩
    · exact .inl (hframed hpart)
    · by_cases hnone : tail = []
      · refine .inl (hframed ?_)
        rw [htail, hnone, List.append_nil]
      · exact .inr ⟨before, cut, lost, tail, hframes, hcut, hlost, hnone, hfarewell, htail⟩

/-- What the transport has taken is framed, unless a frame was torn as the connection closed. -/
theorem Writer.Emission.framed {w : Writer} {a : Transcript} (h : w.Emission a) :
    IsFramed (a.frames ++ [a.farewell]) a.sent ∨
      w.phase.isEnding = true ∧ a.IsTorn (max w.threshold 1024) := by
  have hgoing : a.sent <+: a.frames.flatten → IsFramed (a.frames ++ [a.farewell]) a.sent :=
    fun hsent => (isFramed_of_cut hsent).sublist (List.sublist_append_left _ _)
  rw [← h.capacity]
  cases h.emits with
  | between _ _ _ hsent => exact .inl (hgoing ⟨_, hsent⟩)
  | within hphase _ hframes _ hsent =>
    refine .inl (hgoing ?_)
    rw [hframes, List.flatten_append, List.flatten_singleton, ← List.append_assoc, ← hsent,
      List.append_assoc]
    exact List.prefix_append _ _
  | parting hphase hstream hsent =>
    refine (hstream.framed ?_).imp_right fun htorn => ⟨by rw [hphase]; rfl, htorn⟩
    exact hsent ▸ List.prefix_append _ _
  | stopped hphase hstream hsent =>
    exact (hstream.framed hsent).imp_right fun htorn => ⟨by rw [hphase]; rfl, htorn⟩

/-- The transport gets the frames in their order, up to some point, and the last packet there. -/
theorem Writer.Emission.exists_stream {w : Writer} {a : Transcript} (h : w.Emission a) :
    ∃ stream, stream <+: a.frames.flatten ∧ a.sent <+: stream ++ a.farewell := by
  have hwhole : ∀ {front}, front <+: a.frames.flatten → a.sent <+: front →
      ∃ stream, stream <+: a.frames.flatten ∧ a.sent <+: stream ++ a.farewell :=
    fun hfront hsent => ⟨_, hfront, hsent.trans (List.prefix_append _ _)⟩
  cases h.emits with
  | between _ _ _ hsent => exact hwhole (List.prefix_refl _) ⟨_, hsent⟩
  | within _ _ hframes _ hsent =>
    refine hwhole ?_ ⟨_, hsent⟩
    rw [hframes, List.flatten_append, List.flatten_singleton, ← List.append_assoc]
    exact List.prefix_append _ _
  | parting _ hstream hsent =>
    exact ⟨_, hstream.prefix_flatten, hsent ▸ List.prefix_append _ _⟩
  | stopped _ hstream hsent => exact ⟨_, hstream.prefix_flatten, hsent⟩

end MqttBroker
