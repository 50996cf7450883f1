import RabbitMQ.Connection.ChannelPool.Slots
import RabbitMQ.Connection.ChannelPool.Dedicated

/-! A pool that was closed, or whose `initialize` failed: every channel it opened for a slot is
closed in the end, also the ones that were still being opened. -/

namespace RabbitMQ
namespace ChannelPool

open Transition

variable {size : Nat} {s s' : State}

/-- `initialize` is awaited before anyone closes the pool. -/
def CloseAfterOpens (s : State) (event : Event) : Prop :=
  event = .close → s.initializing = none

instance (s : State) (event : Event) : Decidable (CloseAfterOpens s event) :=
  inferInstanceAs (Decidable (_ → _))

/-- A closed pool owes a close only to the channels that its loops have just opened. -/
structure Shutting (s : State) : Prop where
  opens : s.closed → s.initializing = none
  emptied : s.closed → s.closes ≠ [] ∨ s.channels = []
  owed : s.closed → ∀ channel r index, s.opened.get? channel = some r → r.role = .slot index →
    r.live → r.closing ∨ ∃ q ∈ s.replacements, q.stage = .opened channel

/-- The slots of an open pool hold every open channel that was opened for one. -/
def Holds (s : State) : Prop :=
  s.closed = false → ∀ channel index, s.Serves channel index → s.slot index = some channel

/-- No open channel of a slot is new, and none is taken back from a close. -/
def Keeps (opened opened' : OrderedMap Nat Channel) : Prop :=
  ∀ channel r' index, opened'.get? channel = some r' → r'.role = .slot index → r'.live →
    ∃ r, opened.get? channel = some r ∧ r.role = .slot index ∧ r.live ∧ (r.closing → r'.closing)

theorem Keeps.refl (opened : OrderedMap Nat Channel) : Keeps opened opened :=
  fun _ r' _ hr' hrole hlive => ⟨r', hr', hrole, hlive, fun h => h⟩

theorem keeps_close {opened opened' : OrderedMap Nat Channel} {p : Nat → Prop} [DecidablePred p]
    (h : ∀ k, opened'.get? k = if p k then (opened.get? k).map Channel.close else opened.get? k) :
    Keeps opened opened' := by
  intro channel r' index hr' hrole hlive
  rw [h] at hr'
  split at hr'
  · obtain ⟨r, hr, rfl⟩ := Option.map_eq_some_iff.mp hr'
    exact ⟨r, hr, hrole, hlive, fun hc => Bool.or_eq_true_iff.mpr (.inl hc)⟩
  · exact ⟨r', hr', hrole, hlive, fun h => h⟩

/-- A channel that is lost, or has another role. -/
theorem keeps_set (opened : OrderedMap Nat Channel) (channel : Nat) {r : Channel}
    (hr : ∀ index, r.role = .slot index → r.live = false) : Keeps opened (opened.set channel r) := by
  intro k r' index hr' hrole hlive
  rw [OrderedMap.get?_set] at hr'
  split at hr'
  · cases hr'
    cases (hr index hrole).symm.trans hlive
  · exact ⟨r', hr', hrole, hlive, fun h => h⟩

theorem Shutting.keep (h : Shutting s) (hclosed : s'.closed = s.closed)
    (hinit : s'.initializing = s.initializing) (hchannels : s.closed → s'.channels = s.channels)
    (hcloses : s'.closes = s.closes) (hopened : Keeps s.opened s'.opened)
    (hloops : ∀ q ∈ s.replacements, ∀ channel, q.stage = .opened channel → q ∈ s'.replacements) :
    Shutting s' := by
  refine ⟨fun hc => hinit.trans (h.opens (hclosed ▸ hc)), fun hc => ?_, fun hc => ?_⟩
  · rw [hcloses, hchannels (hclosed ▸ hc)]
    exact h.emptied (hclosed ▸ hc)
  · intro channel r' index hr' hrole hlive
    obtain ⟨r, hr, hrole, hlive, hkept⟩ := hopened channel r' index hr' hrole hlive
    rcases h.owed (hclosed ▸ hc) channel r index hr hrole hlive with hclosing | ⟨q, hmem, hq⟩
    · exact .inl (hkept hclosing)
    · exact .inr ⟨q, hloops q hmem channel hq, hq⟩

/-- A pool that is open owes nothing. -/
theorem shutting_of_open (hopen : s.closed = false) : Shutting s :=
  ⟨fun hc => (by cases hopen.symm.trans hc), fun hc => (by cases hopen.symm.trans hc),
    fun hc => (by cases hopen.symm.trans hc)⟩

/-- A loop that has not just opened a channel goes on, or returns. -/
theorem mem_replace {r q : Replacement} {channel : Nat} (hmem : q ∈ s.replacements)
    (hq : q.stage = .opened channel) (hr : r.stage ≠ .opened channel) (next : Option Replacement) :
    q ∈ (s.replace r next).replacements := by
  refine List.mem_append_right _ ((List.mem_erase_of_ne ?_).mpr hmem)
  rintro rfl
  exact hr hq

theorem mem_held_of_slot {index channel : Nat} (h : s.slot index = some channel) :
    channel ∈ s.held := by
  refine List.mem_append_left _ (List.mem_filterMap.mpr ⟨some channel, ?_, rfl⟩)
  exact List.mem_of_getElem? (Option.join_eq_some_iff.mp h)

/-- `close()` reaches every channel of a slot. -/
theorem Shutting.close (h : Shutting s) (hholds : Holds s) (hinit : s.initializing = none) :
    Shutting s.close := by
  obtain ⟨opened, heq, hget⟩ := closeChannels_frame s.held { s with
    closed := true
    closes := (s.held.filter fun channel =>
      (s.opened.get? channel).any fun r => r.live && !r.closing) :: s.closes }
  unfold State.close
  dsimp only
  rw [heq]
  refine ⟨fun _ => hinit, fun _ => .inl (List.cons_ne_nil _ _), fun _ => ?_⟩
  intro channel r' index hr' hrole hlive
  obtain ⟨r, hr, hrole₀, hlive₀, hkept⟩ := keeps_close hget channel r' index hr' hrole hlive
  cases hclosed : s.closed with
  | true =>
    exact (h.owed hclosed channel r index hr hrole₀ hlive₀).imp_left hkept
  | false =>
    have hslot := hholds hclosed channel index ⟨r, hr, hrole₀, hlive₀⟩
    rw [hget, if_pos (mem_held_of_slot hslot)] at hr'
    obtain ⟨r₀, -, rfl⟩ := Option.map_eq_some_iff.mp hr'
    exact .inl (Bool.or_eq_true_iff.mpr (.inr hlive))

theorem Steps.shutting {event : Event} (H : Steps s event s') (hok : CloseAfterOpens s event)
    (hholds : Holds s) (h : Shutting s) : Shutting s' := by
  have hopen : ∀ {opens}, s.initializing = some opens → s.closed = false := fun hinit =>
    Bool.eq_false_iff.mpr fun hc => by cases (h.opens hc).symm.trans hinit
  cases H with
  | opens hinit hpending hfresh => exact shutting_of_open (hopen hinit)
  | openFails hinit hpending => exact shutting_of_open (hopen hinit)
  | @initialized opens hinit hsettled =>
    unfold State.initialized
    dsimp only
    split
    · exact Shutting.close (shutting_of_open (hopen hinit)) hholds rfl
    · exact shutting_of_open (hopen hinit)
  | @emitsClose channel r hr =>
    obtain ⟨role, live, closing⟩ := r
    have hlost := keeps_set s.opened channel (r := ⟨role, false, closing⟩) fun _ _ => rfl
    cases role with
    | slot index =>
      unfold State.emitClose
      dsimp only
      split
      · exact h.keep rfl rfl (fun _ => rfl) rfl hlost fun _ hmem _ _ => hmem
      · next hslot =>
        have hclosed : s.closed = false := Bool.eq_false_iff.mpr fun hc => hslot (.inl hc)
        exact shutting_of_open hclosed
    | dedicated id => exact h.keep rfl rfl (fun _ => rfl) rfl hlost fun _ hmem _ _ => hmem
  | @replacementOpens index attempt channel hmem hfresh =>
    cases hclosed : s.closed with
    | false => exact shutting_of_open hclosed
    | true =>
      refine ⟨fun _ => h.opens hclosed, fun _ => ?_, fun _ => ?_⟩
      · simp only [State.replace, State.createPoolChannel, hclosed, if_true]
        exact h.emptied hclosed
      · intro k r' j hr' hrole hlive
        simp only [State.replace, State.createPoolChannel, OrderedMap.get?_set] at hr'
        split at hr'
        · next hk =>
          subst hk
          exact .inr ⟨_, List.mem_append_left _ List.mem_cons_self, rfl⟩
        · refine (h.owed hclosed k r' j hr' hrole hlive).imp_right ?_
          rintro ⟨q, hq, hstage⟩
          exact ⟨q, mem_replace (s := s.createPoolChannel index channel) hq hstage (fun h => by cases h) _, hstage⟩
  | replacementFails hmem =>
    exact h.keep rfl rfl (fun _ => rfl) rfl (.refl _) fun q hq _ hstage =>
      mem_replace hq hstage (fun h => by cases h) _
  | @replaced index attempt channel hmem =>
    unfold State.replaced
    split
    · next hclosed =>
      obtain ⟨opened, heq, hget⟩ := closeChannel_frame s channel
      rw [heq]
      refine ⟨fun _ => h.opens hclosed, fun _ => h.emptied hclosed, fun _ => ?_⟩
      intro k r' j hr' hrole hlive
      have hr' : opened.get? k = some r' := hr'
      obtain ⟨r, hr, hrole₀, hlive₀, hkept⟩ := keeps_close hget k r' j hr' hrole hlive
      by_cases hk : k = channel
      · -- the loop closes the channel that came too late
        rw [hget, if_pos hk] at hr'
        obtain ⟨r₀, -, rfl⟩ := Option.map_eq_some_iff.mp hr'
        exact .inl (Bool.or_eq_true_iff.mpr (.inr hlive))
      · rcases h.owed hclosed k r j hr hrole₀ hlive₀ with hclosing | ⟨q, hq, hstage⟩
        · exact .inl (hkept hclosing)
        · refine .inr ⟨q, mem_replace (s := { s with opened }) hq hstage (fun heq => hk ?_) _,
            hstage⟩
          cases heq
          rfl
    · next hclosed => exact shutting_of_open (Bool.eq_false_iff.mpr hclosed)
  | slept hmem =>
    exact h.keep rfl rfl (fun _ => rfl) rfl (.refl _) fun q hq _ hstage =>
      mem_replace hq hstage (fun h => by cases h) _
  | discarded hmem hdead =>
    exact h.keep rfl rfl (fun _ => rfl) rfl (.refl _) fun q hq _ hstage =>
      mem_replace hq hstage (fun h => by cases h) _
  | getChannel =>
    obtain ⟨index, heq⟩ := getChannel_frame s
    rw [heq]
    exact h.keep rfl rfl (fun _ => rfl) rfl (.refl _) fun _ hmem _ _ => hmem
  | getDedicatedChannel =>
    unfold State.getDedicatedChannel
    split
    · exact h.keep rfl rfl (fun _ => rfl) rfl (.refl _) fun _ hmem _ _ => hmem
    · exact h.keep rfl rfl (fun _ => rfl) rfl (.refl _) fun _ hmem _ _ => hmem
  | @dedicatedOpens id channel hmem hfresh =>
    exact h.keep rfl rfl (fun _ => rfl) rfl
      (keeps_set s.opened channel fun _ hrole => by cases hrole) fun _ hmem _ _ => hmem
  | dedicatedFails => exact h.keep rfl rfl (fun _ => rfl) rfl (.refl _) fun _ hmem _ _ => hmem
  | @releaseDedicatedChannel id =>
    unfold State.releaseDedicatedChannel
    split
    · exact h
    · next channel hid =>
      obtain ⟨opened, heq, hget⟩ := closeChannel_frame
        { s with dedicatedChannels := s.dedicatedChannels.erase id } channel
      rw [heq]
      exact h.keep rfl rfl (fun _ => rfl) rfl (keeps_close hget) fun _ hmem _ _ => hmem
  | close => exact h.close hholds (hok rfl)
  | closeResumes hmem hdead =>
    exact ⟨h.opens, fun _ => .inr rfl, h.owed⟩

/-! ## Every run -/

/-- A run of the pool, with the failed opens counted. -/
theorem counted_of_run {ok : State → Event → Prop} (hr : Reach step ok (start size) s) :
    ∃ failures, Reach counted anyStep (countedStart size) ⟨s, failures⟩ := by
  induction hr with
  | refl => exact ⟨_, .refl⟩
  | @tail s s' event _ _ hs ih =>
    obtain ⟨failures, hcounted⟩ := ih
    exact ⟨tally s s' event failures, .tail hcounted trivial (by rw [counted, hs]; rfl)⟩

theorem holds_of_reach {ok : State → Event → Prop} (hr : Reach step ok (start size) s) :
    Holds s := by
  obtain ⟨failures, hcounted⟩ := counted_of_run hr
  have hslots : Slots size ⟨s, failures⟩ :=
    hcounted.invariant (slots_start size) fun h _ hs => h.counted hs
  exact fun hopen channel index hserves => ((hslots.tended hopen).occupied index channel).mpr hserves

/-- A closed pool hands out nothing once it is closed, and when no close and no loop is in progress
any more no channel it opened for a slot is open; if no dedicated channel escaped its owner none is
open at all. -/
theorem closed_pool_leaves_nothing (hr : Reach step CloseAfterOpens (start size) s)
    (hclosed : s.closed) :
    (s.closes = [] → s.channels = [] ∧ s.getChannel.1 = .error .notInitialized) ∧
    (s.settled → s.replacements = [] →
      (∀ channel r index, s.opened.get? channel = some r → r.role = .slot index →
        r.live = false) ∧
      (Reach step Exclusive (start size) s → ∀ channel, s.live channel = false)) := by
  have hshutting : Shutting s := hr.invariant_of holds_of_reach (shutting_of_open rfl)
    fun hholds _ h hok hs => (step_cases hs).shutting hok hholds h
  have hslots : s.settled → s.replacements = [] → ∀ channel r index,
      s.opened.get? channel = some r → r.role = .slot index → r.live = false := by
    intro hsettled hloops channel r index hr' hrole
    cases hlive : r.live with
    | false => rfl
    | true =>
      rcases hshutting.owed hclosed channel r index hr' hrole hlive with hclosing | ⟨q, hmem, -⟩
      · cases (not_closing_of_settled hsettled hr' hlive).symm.trans hclosing
      · rw [hloops] at hmem
        cases hmem
  refine ⟨fun hcloses => ?_, fun hsettled hloops => ⟨hslots hsettled hloops, fun hexclusive => ?_⟩⟩
  · have hempty : s.channels = [] := (hshutting.emptied hclosed).resolve_left fun h => h hcloses
    refine ⟨hempty, ?_⟩
    unfold State.getChannel
    rw [if_pos (by rw [hempty]; rfl)]
  · have howned : Owned s := hexclusive.invariant (owned_start size)
      fun h hok hs => (step_cases hs).owned hok h
    intro channel
    unfold State.live
    cases hget : s.opened.get? channel with
    | none => rfl
    | some r =>
      cases hrole : r.role with
      | slot index => exact hslots hsettled hloops channel r index hget hrole
      | dedicated id => exact (howned.oneEach hsettled).shut hclosed channel r id hget hrole

/-- An open fails, so `initialize` closes the pool; the replacement of a channel that was lost
meanwhile comes too late. -/
def failedInitialize : List Event :=
  [.opens 0 0, .emitsClose 0, .openFails 1, .initialized, .closeResumes [],
    .replacementOpens ⟨0, 1, .opening⟩ 1, .replacementResumes ⟨0, 1, .opened 1⟩, .emitsClose 1,
    .replacementResumes ⟨0, 1, .discarding 1⟩]

theorem closed_pool_leaves_nothing_failedInitialize : ∃ s,
    Reach step CloseAfterOpens (start 2) s ∧ s.closed ∧ s.opened.keys = [0, 1] ∧
      ∀ channel, s.live channel = false := by
  have hrun : (run step (fun s e => CloseAfterOpens s e ∧ Exclusive s e) (start 2)
      failedInitialize).any fun s => decide (s.closed ∧ s.opened.keys = [0, 1] ∧ s.settled ∧
        s.replacements = []) := by decide +kernel
  obtain ⟨s, hs, h⟩ := (Option.any_eq_true _ _).mp hrun
  have hr := reach_of_run hs
  obtain ⟨hclosed, hkeys, hsettled, hloops⟩ := of_decide_eq_true h
  have hafter : Reach step CloseAfterOpens (start 2) s := hr.mono fun _ _ hok => hok.1
  have hexclusive : Reach step Exclusive (start 2) s := hr.mono fun _ _ hok => hok.2
  exact ⟨s, hafter, hclosed, hkeys,
    ((closed_pool_leaves_nothing hafter hclosed).2 hsettled hloops).2 hexclusive⟩

end ChannelPool
end RabbitMQ
