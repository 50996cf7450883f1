import RabbitMQ.Connection.ChannelPool.Slots
import RabbitMQ.Lib.RoundRobin

/-! The channels that `getChannel` hands out: each open channel of a slot in its turn, whatever slots
are empty and wherever the rotation stands. -/

namespace RabbitMQ
namespace ChannelPool

open Transition

variable {size : Nat} {s s' : State}

/-- The channels in the slots. -/
def State.inRotation (s : State) : List Nat := s.channels.reduceOption

/-- The channels in the order `getChannel` comes to them. -/
def State.order (s : State) : List Nat := RoundRobin.order s.channels s.index

/-- What a call of `getChannel` returns if it comes to a channel. -/
def State.outcome (s : State) : Option Nat → Except GetChannelError Nat
  | some channel => .ok channel
  | none => .error (if s.channels.length = 0 then .notInitialized else .noUsableChannels)

/-- A step, with what the call of `getChannel` returns or throws if it is one. -/
def answered (s : State) (event : Event) : Option (State × List (Except GetChannelError Nat)) :=
  (step s event).map fun s' =>
    (s', match event with
      | .getChannel => [s.getChannel.1]
      | _ => [])

/-- The step leaves every slot as it is. -/
def slotsKept (w : State × List (Except GetChannelError Nat)) (event : Event) : Prop :=
  ∀ s', step w.1 event = some s' → s'.channels = w.1.channels

instance (w : State × List (Except GetChannelError Nat)) (event : Event) :
    Decidable (slotsKept w event) :=
  decidable_of_iff ((step w.1 event).all fun s' => decide (s'.channels = w.1.channels)) <| by
    cases h : step w.1 event with
    | none => simp [slotsKept, h]
    | some s' => simp [slotsKept, h]

/-- What the calls of `getChannel` return from a state on, while the slots stay as they are. -/
structure Rotates (s : State) (w : State × List (Except GetChannelError Nat)) : Prop where
  /-- the channels in rotation are the open ones, and each is in one slot -/
  live : ∀ channel, channel ∈ s.inRotation ↔ ∃ index, s.Serves channel index
  distinct : s.inRotation.Nodup
  /-- as many calls in a row as there are channels in rotation return each of them once -/
  once : ∀ i, i + s.inRotation.length ≤ w.2.length →
    ((w.2.drop i).take s.inRotation.length).Perm (s.inRotation.map .ok)
  cyclic : ∀ k, k + s.inRotation.length < w.2.length →
    w.2[k + s.inRotation.length]? = w.2[k]?
  index : s.channels ≠ [] → w.1.index < s.channels.length
  throws : ∀ r ∈ w.2, (∃ error, r = .error error) ↔ s.inRotation = []

/-! ## The rotation -/

theorem rotate_eq (s : State) (turns index : Nat) :
    s.rotate turns index = RoundRobin.next s.channels turns index := by
  induction turns generalizing index with
  | zero => rfl
  | succ turns ih =>
    rw [State.rotate, RoundRobin.next, ← State.slot]
    cases s.slot index with
    | some channel => rfl
    | none => exact ih _

/-- The rotation stands at a slot, if there are any. -/
def State.Indexed (s : State) : Prop := s.index = 0 ∨ s.index < s.channels.length

theorem State.Indexed.lt (h : s.Indexed) (hne : s.channels ≠ []) :
    s.index < s.channels.length := by
  rcases h with hzero | hlt
  · rw [hzero]
    exact List.length_pos_iff.mpr hne
  · exact hlt

theorem length_setSlot (channels : List (Option Nat)) (index : Nat) (channel : Option Nat) :
    channels.length ≤ (setSlot channels index channel).length := by
  unfold setSlot
  split
  · rw [List.length_set]
  · rw [List.length_append, List.length_append]
    omega

theorem State.Indexed.grow (h : s.Indexed) (hindex : s'.index = s.index)
    (hlength : s.channels.length ≤ s'.channels.length) : s'.Indexed := by
  unfold State.Indexed
  rw [hindex]
  exact h.imp_right fun hlt => Nat.lt_of_lt_of_le hlt hlength

theorem getChannel_eq (h : s.channels ≠ []) : s.getChannel =
    (s.outcome (RoundRobin.next s.channels s.channels.length s.index).1,
      { s with index := (RoundRobin.next s.channels s.channels.length s.index).2 }) := by
  have hne : s.channels.length ≠ 0 := fun hzero => h (List.length_eq_zero_iff.mp hzero)
  rw [State.getChannel, if_neg hne, rotate_eq]
  generalize RoundRobin.next s.channels s.channels.length s.index = found
  obtain ⟨channel, index⟩ := found
  cases channel with
  | some channel => rfl
  | none =>
    dsimp only [State.outcome]
    rw [if_neg hne]

/-- A call of `getChannel` comes to the first channel of the order, and moves it to its end. -/
theorem getChannel_order (h : s.Indexed) :
    s.getChannel.1 = s.outcome s.order.head? ∧ s.getChannel.2.channels = s.channels ∧
      s.getChannel.2.Indexed ∧ s.getChannel.2.order = s.order.rotate 1 := by
  by_cases hempty : s.channels = []
  · have hlength : s.channels.length = 0 := by rw [hempty]; rfl
    have horder : s.order = [] := by rw [State.order, RoundRobin.order, hempty]; rfl
    rw [State.getChannel, if_pos hlength, horder, List.rotate_nil, List.head?_nil, State.outcome,
      if_pos hlength]
    exact ⟨rfl, rfl, h, rfl⟩
  · have hlt := h.lt hempty
    obtain ⟨hfirst, hafter⟩ := RoundRobin.next_order hlt
    rw [getChannel_eq hempty, hfirst]
    exact ⟨rfl, rfl, .inr (RoundRobin.next_lt hlt _), hafter⟩

/-! ## The index -/

theorem channels_createPoolChannel (s : State) (index channel : Nat) :
    s.channels.length ≤ (s.createPoolChannel index channel).channels.length := by
  unfold State.createPoolChannel
  dsimp only
  split
  · exact Nat.le_refl _
  · exact length_setSlot _ _ _

/-- A step other than `getChannel` leaves the index, or empties the pool. -/
theorem Steps.index {event : Event} (H : Steps s event s') (hevent : event ≠ .getChannel) :
    s'.index = s.index ∧ s.channels.length ≤ s'.channels.length ∨
      s'.index = 0 ∧ s'.channels = [] := by
  cases H with
  | getChannel => exact absurd rfl hevent
  | opens => exact .inl ⟨rfl, channels_createPoolChannel _ _ _⟩
  | replacementOpens => exact .inl ⟨rfl, channels_createPoolChannel _ _ _⟩
  | openFails | replacementFails | slept | discarded | dedicatedOpens | dedicatedFails =>
    exact .inl ⟨rfl, Nat.le_refl _⟩
  | @initialized opens =>
    unfold State.initialized
    split
    · obtain ⟨opened, heq, -⟩ := closeChannels_frame (State.held { s with initializing := none })
        { s with initializing := none, closed := true,
                  closes := _ :: s.closes }
      refine .inl ?_
      rw [State.close, heq]
      exact ⟨rfl, Nat.le_refl _⟩
    · exact .inl ⟨rfl, Nat.le_refl _⟩
  | @emitsClose channel r =>
    refine .inl ?_
    obtain ⟨role, live, closing⟩ := r
    unfold State.emitClose
    cases role with
    | slot index =>
      dsimp only
      split
      · exact ⟨rfl, Nat.le_refl _⟩
      · exact ⟨rfl, length_setSlot _ _ _⟩
    | dedicated id => exact ⟨rfl, Nat.le_refl _⟩
  | @replaced index attempt channel =>
    refine .inl ?_
    unfold State.replaced
    split
    · obtain ⟨opened, heq, -⟩ := closeChannel_frame s channel
      rw [heq]
      exact ⟨rfl, Nat.le_refl _⟩
    · exact ⟨rfl, Nat.le_refl _⟩
  | @getDedicatedChannel id =>
    refine .inl ?_
    unfold State.getDedicatedChannel
    split <;> exact ⟨rfl, Nat.le_refl _⟩
  | @releaseDedicatedChannel id =>
    refine .inl ?_
    unfold State.releaseDedicatedChannel
    split
    · exact ⟨rfl, Nat.le_refl _⟩
    · next channel _ =>
      obtain ⟨opened, heq, -⟩ := closeChannel_frame
        { s with dedicatedChannels := s.dedicatedChannels.erase id } channel
      rw [heq]
      exact ⟨rfl, Nat.le_refl _⟩
  | close =>
    obtain ⟨opened, heq, -⟩ := closeChannels_frame s.held
      { s with closed := true, closes := _ :: s.closes }
    refine .inl ?_
    rw [State.close, heq]
    exact ⟨rfl, Nat.le_refl _⟩
  | closeResumes => exact .inr ⟨rfl, rfl⟩

theorem Steps.indexed {event : Event} (H : Steps s event s') (h : s.Indexed) : s'.Indexed := by
  by_cases hevent : event = .getChannel
  · subst hevent
    cases H
    exact (getChannel_order h).2.2.1
  · rcases H.index hevent with ⟨hindex, hlength⟩ | ⟨hzero, -⟩
    · exact h.grow hindex hlength
    · exact .inl hzero

theorem indexed_of_reach {ok : State → Event → Prop} (hr : Reach step ok (start size) s) :
    s.Indexed :=
  hr.invariant (.inl rfl) fun h _ hs => (step_cases hs).indexed h

/-! ## The channels in rotation -/

theorem counted_of_reach (hr : Reach step anyStep (start size) s) :
    ∃ failures, Reach counted anyStep (countedStart size) ⟨s, failures⟩ := by
  induction hr with
  | refl => exact ⟨_, .refl⟩
  | @tail s t event _ _ hs ih =>
    obtain ⟨failures, hcounted⟩ := ih
    exact ⟨_, .tail hcounted trivial (by rw [counted, hs]; rfl)⟩

/-- The slots of a pool that is not closed hold the open channels, each one. -/
theorem inRotation_of_reach (hr : Reach step anyStep (start size) s) (hopen : s.closed = false) :
    (∀ channel, channel ∈ s.inRotation ↔ ∃ index, s.Serves channel index) ∧
      s.inRotation.Nodup := by
  obtain ⟨failures, hcounted⟩ := counted_of_reach hr
  have hslots : Slots size ⟨s, failures⟩ :=
    hcounted.invariant (slots_start size) fun h _ hs => h.counted hs
  have htended := hslots.tended hopen
  refine ⟨fun channel => ?_, RoundRobin.nodup_reduceOption fun i j channel hi hj => ?_⟩
  · rw [State.inRotation, List.reduceOption_mem_iff, List.mem_iff_getElem?]
    refine exists_congr fun index => Iff.trans ?_ (htended.occupied index channel)
    rw [State.slot, Option.join_eq_some_iff]
  · obtain ⟨r, hr, hi, -⟩ := (htended.occupied i channel).mp hi
    obtain ⟨r', hr', hj, -⟩ := (htended.occupied j channel).mp hj
    cases hr.symm.trans hr'
    cases hi.symm.trans hj
    rfl

theorem order_perm (s : State) : s.order.Perm s.inRotation :=
  RoundRobin.order_perm s.channels s.index

theorem length_order (s : State) : s.order.length = s.inRotation.length := (order_perm s).length_eq

/-! ## Runs of calls -/

/-- After some calls of `getChannel`, with the slots of before. -/
structure Turned (s : State) (w : State × List (Except GetChannelError Nat)) : Prop where
  channels : w.1.channels = s.channels
  indexed : w.1.Indexed
  order : w.1.order = s.order.rotate w.2.length
  returned : w.2 = (RoundRobin.turns s.order w.2.length).map s.outcome

theorem outcome_congr (h : s'.channels = s.channels) : s'.outcome = s.outcome := by
  funext found
  cases found with
  | some channel => rfl
  | none => rw [State.outcome, State.outcome, h]

theorem Turned.step {w w' : State × List (Except GetChannelError Nat)} {event : Event}
    (h : Turned s w) (hkept : slotsKept w event) (hs : logged answered w event = some w') :
    Turned s w' := by
  obtain ⟨t, out, hanswered, rfl⟩ := logged_eq_some hs
  obtain ⟨t', hstep, heq⟩ := Option.map_eq_some_iff.mp hanswered
  cases heq
  have hchannels := hkept t hstep
  have H := step_cases hstep
  by_cases hevent : event = .getChannel
  · subst hevent
    cases H
    obtain ⟨hreturns, -, hindexed, horder⟩ := getChannel_order h.indexed
    refine ⟨hchannels.trans h.channels, hindexed, ?_, ?_⟩
    · rw [horder, h.order, List.rotate_rotate, List.length_append]
      rfl
    · rw [hreturns, h.order, outcome_congr h.channels, List.length_append, List.length_singleton,
        RoundRobin.turns_succ, List.map_append, ← h.returned]
      rfl
  · have hout : (match event with
        | .getChannel => [w.1.getChannel.1]
        | _ => []) = [] := by
      cases event with
      | getChannel => exact absurd rfl hevent
      | _ => rfl
    rw [hout, List.append_nil]
    have horder : t.order = w.1.order := by
      rcases H.index hevent with ⟨hindex, -⟩ | ⟨-, hempty⟩
      · rw [State.order, State.order, hchannels, hindex]
      · rw [State.order, State.order, ← hchannels, hempty, RoundRobin.order, RoundRobin.order,
          List.rotate_nil, List.rotate_nil]
    exact ⟨hchannels.trans h.channels, H.indexed h.indexed, horder.trans h.order, h.returned⟩

theorem throws_iff {found : Option Nat} :
    (∃ error, s.outcome found = .error error) ↔ found = none := by
  cases found with
  | some channel => exact ⟨nofun, nofun⟩
  | none => exact ⟨fun _ => rfl, fun _ => ⟨_, rfl⟩⟩

/-- While the slots stay as they are, the calls of `getChannel` return the open channels of the slots
in turn, and throw only if there are none. -/
theorem getChannel_rotates {w : State × List (Except GetChannelError Nat)}
    (hr : Reach step anyStep (start size) s) (hopen : s.closed = false)
    (hw : Reach (logged answered) slotsKept (s, []) w) : Rotates s w := by
  obtain ⟨hlive, hnodup⟩ := inRotation_of_reach hr hopen
  have hstart : Turned s (s, []) := ⟨rfl, indexed_of_reach hr, s.order.rotate_zero.symm, rfl⟩
  have h : Turned s w := hw.invariant hstart fun h hkept hs => h.step hkept hs
  have hlength := length_order s
  refine ⟨hlive, hnodup, fun i hi => ?_, fun k hk => ?_, fun hne => ?_, fun r hmem => ?_⟩
  · rw [← hlength] at hi ⊢
    rw [h.returned, ← List.map_drop, ← List.map_take, RoundRobin.window_turns hi, List.map_map]
    exact ((s.order.rotate_perm i).trans (order_perm s)).map _
  · rw [← hlength] at hk ⊢
    rw [h.returned, List.getElem?_map, List.getElem?_map, RoundRobin.turns_period hk]
  · rw [← h.channels] at hne ⊢
    exact h.indexed.lt hne
  · rw [h.returned] at hmem
    obtain ⟨found, hfound, rfl⟩ := List.mem_map.mp hmem
    obtain ⟨k, -, rfl⟩ := List.mem_map.mp hfound
    rw [throws_iff, List.head?_eq_none_iff, List.rotate_eq_nil_iff, ← List.length_eq_zero_iff,
      hlength, List.length_eq_zero_iff]

/-- The rotation of three slots stands at the one that lost its channel. -/
theorem getChannel_rotates_hole : ∃ s w, Reach step anyStep (start 3) s ∧ s.closed = false ∧
    Reach (logged answered) slotsKept (s, []) w ∧ s.slot s.index = none ∧
      w.2 = [.ok 2, .ok 0, .ok 2, .ok 0] ∧ Rotates s w := by
  have hs : (run step anyStep (start 3) [.opens 0 0, .opens 1 1, .opens 2 2, .initialized,
      .getChannel, .emitsClose 1, .replacementFails ⟨1, 1, .opening⟩]).any (fun s =>
        decide (s.closed = false ∧ s.slot s.index = none) &&
          (run (logged answered) slotsKept (s, []) [.getChannel, .getChannel,
            .getDedicatedChannel 0, .getChannel, .getChannel]).any fun w =>
              decide (w.2 = [.ok 2, .ok 0, .ok 2, .ok 0])) := by
    decide +kernel
  obtain ⟨s, hs, h⟩ := (Option.any_eq_true _ _).mp hs
  obtain ⟨hstate, hcalls⟩ := (Bool.and_eq_true _ _).mp h
  obtain ⟨hopen, hhole⟩ := of_decide_eq_true hstate
  obtain ⟨w, hw, hreturned⟩ := (Option.any_eq_true _ _).mp hcalls
  exact ⟨s, w, reach_of_run hs, hopen, reach_of_run hw, hhole, of_decide_eq_true hreturned,
    getChannel_rotates (reach_of_run hs) hopen (reach_of_run hw)⟩

end ChannelPool
end RabbitMQ
