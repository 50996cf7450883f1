import RabbitMQ.Connection.ChannelPool

/-! Dedicated channels and their owners: an open one is registered under its id, unless `close()`
was called on it. -/

namespace RabbitMQ
namespace ChannelPool

open Transition

variable {s s' : State}

/-- A dedicated channel lands only on an open pool and under a free id, and none is lost while the
open pool has another one under its id. -/
def Exclusive (s : State) : Event → Prop
  | .dedicatedOpens id _ => s.closed = false ∧ id ∉ s.dedicatedChannels
  | .emitsClose channel => s.closed = false → ∀ r ∈ s.opened.get? channel,
      match r.role with
      | .slot _ => True
      | .dedicated id => ∀ other ∈ s.dedicatedChannels.get? id, other = channel
  | _ => True

instance (s : State) (event : Event) : Decidable (Exclusive s event) := by
  unfold Exclusive
  split
  · infer_instance
  · have (r : Channel) (channel : Nat) : Decidable (match r.role with
      | .slot _ => True
      | .dedicated id => ∀ other ∈ s.dedicatedChannels.get? id, other = channel) := by
      split <;> infer_instance
    infer_instance
  · infer_instance

/-- No dedicated channel is being opened, and no channel closed. -/
def State.settled (s : State) : Bool :=
  s.requests.isEmpty && s.closes.isEmpty &&
    s.opened.entries.all fun entry => !(entry.2.live && entry.2.closing)

/-- Each dedicated channel belongs to its owner. -/
structure OneEach (s : State) : Prop where
  /-- an open channel is registered under its id -/
  registered : ∀ channel r id, s.opened.get? channel = some r → r.role = .dedicated id → r.live →
    s.dedicatedChannels.get? id = some channel
  /-- whoever asked for it under the same id has the same channel -/
  shared : ∀ id channel channel', (id, channel) ∈ s.got → (id, channel') ∈ s.got →
    s.live channel → s.live channel' → channel = channel'
  /-- a release or a close closes it -/
  released : ∀ id channel, s.dedicatedChannels.get? id = some channel →
    ((s.releaseDedicatedChannel id).opened.get? channel).any (·.closing) ∧
      (s.close.opened.get? channel).any (·.closing)
  /-- after `close` none is open -/
  shut : s.closed → ∀ channel r id, s.opened.get? channel = some r → r.role = .dedicated id →
    r.live = false

structure Owned (s : State) : Prop where
  registered : ∀ id channel, s.dedicatedChannels.get? id = some channel →
    ∃ r, s.opened.get? channel = some r ∧ r.role = .dedicated id ∧ r.live
  owned : ∀ channel r id, s.opened.get? channel = some r → r.role = .dedicated id → r.live →
    r.closing ∨ s.dedicatedChannels.get? id = some channel
  shut : s.closed → ∀ channel r id, s.opened.get? channel = some r → r.role = .dedicated id →
    r.live → r.closing
  got : ∀ p ∈ s.got, ∃ r, s.opened.get? p.2 = some r ∧ r.role = .dedicated p.1
  closes : s.closes ≠ [] → s.closed

theorem owned_start (size : Nat) : Owned (start size) :=
  ⟨nofun, nofun, nofun, nofun, fun h => absurd rfl h⟩

/-- No dedicated channel opens, is lost, or is taken back from a close. -/
structure Preserves (opened opened' : OrderedMap Nat Channel) : Prop where
  back : ∀ channel r' id, opened'.get? channel = some r' → r'.role = .dedicated id →
    ∃ r, opened.get? channel = some r ∧ r.role = .dedicated id ∧ r.live = r'.live ∧
      (r.closing → r'.closing)
  forth : ∀ channel r id, opened.get? channel = some r → r.role = .dedicated id →
    ∃ r', opened'.get? channel = some r' ∧ r'.role = .dedicated id ∧ r'.live = r.live

theorem Preserves.refl (opened : OrderedMap Nat Channel) : Preserves opened opened :=
  ⟨fun _ r' _ h hrole => ⟨r', h, hrole, rfl, id⟩, fun _ r _ h hrole => ⟨r, h, hrole, rfl⟩⟩

/-- A channel of a slot opens, or is lost. -/
theorem preserves_slot {opened : OrderedMap Nat Channel} {channel index : Nat} (r : Channel)
    (hrole : r.role = .slot index)
    (hold : ∀ r', opened.get? channel = some r' → r'.role = .slot index) :
    Preserves opened (opened.set channel r) := by
  refine ⟨fun k r' id hr' hrole' => ?_, fun k r' id hr' hrole' => ?_⟩
  · rw [OrderedMap.get?_set] at hr'
    split at hr'
    · cases hr'
      cases hrole.symm.trans hrole'
    · exact ⟨r', hr', hrole', rfl, fun h => h⟩
  · rw [OrderedMap.get?_set]
    split
    · next hk =>
      subst hk
      cases (hold r' hr').symm.trans hrole'
    · exact ⟨r', hr', hrole', rfl⟩

theorem preserves_close {opened opened' : OrderedMap Nat Channel} {p : Nat → Prop}
    [DecidablePred p] (h : ∀ k, opened'.get? k =
      if p k then (opened.get? k).map Channel.close else opened.get? k) :
    Preserves opened opened' := by
  refine ⟨fun k r' id hr' hrole' => ?_, fun k r id hr hrole => ?_⟩
  · rw [h] at hr'
    split at hr'
    · obtain ⟨r, hr, rfl⟩ := Option.map_eq_some_iff.mp hr'
      exact ⟨r, hr, hrole', rfl, fun hc => by simp [Channel.close, hc]⟩
    · exact ⟨r', hr', hrole', rfl, fun h => h⟩
  · rw [h]
    split
    · exact ⟨r.close, by rw [hr]; rfl, hrole, rfl⟩
    · exact ⟨r, hr, hrole, rfl⟩

theorem Owned.preserves (h : Owned s) (hopened : Preserves s.opened s'.opened)
    (hdedicated : s'.dedicatedChannels = s.dedicatedChannels) (hclosed : s'.closed = s.closed)
    (hgot : s'.got = s.got) (hcloses : s'.closes = s.closes) : Owned s' := by
  refine ⟨fun id channel hid => ?_, fun channel r' id hr' hrole' hlive => ?_,
    fun hshut channel r' id hr' hrole' hlive => ?_, fun p hp => ?_, fun hc => ?_⟩
  · obtain ⟨r, hr, hrole, hlive⟩ := h.registered id channel (hdedicated ▸ hid)
    obtain ⟨r', hr', hrole', hsame⟩ := hopened.forth channel r id hr hrole
    exact ⟨r', hr', hrole', hsame.trans hlive⟩
  · obtain ⟨r, hr, hrole, hsame, hclosing⟩ := hopened.back channel r' id hr' hrole'
    rw [hdedicated]
    exact (h.owned channel r id hr hrole (hsame.trans hlive)).imp_left hclosing
  · obtain ⟨r, hr, hrole, hsame, hclosing⟩ := hopened.back channel r' id hr' hrole'
    exact hclosing (h.shut (hclosed ▸ hshut) channel r id hr hrole (hsame.trans hlive))
  · obtain ⟨r, hr, hrole⟩ := h.got p (hgot ▸ hp)
    obtain ⟨r', hr', hrole', -⟩ := hopened.forth p.2 r p.1 hr hrole
    exact ⟨r', hr', hrole'⟩
  · exact hclosed.trans (h.closes (hcloses ▸ hc))

theorem Owned.createPoolChannel (h : Owned s) (index : Nat) {channel : Nat}
    (hfresh : channel ∉ s.opened) : Owned (s.createPoolChannel index channel) := by
  refine h.preserves (preserves_slot ⟨.slot index, true, false⟩ rfl fun r' hr' => ?_) rfl rfl rfl rfl
  exact absurd (OrderedMap.mem_of_get? hr') hfresh

theorem Owned.closeChannel (h : Owned s) (channel : Nat) : Owned (s.closeChannel channel) := by
  obtain ⟨opened, heq, hget⟩ := closeChannel_frame s channel
  rw [heq]
  exact h.preserves (preserves_close hget) rfl rfl rfl rfl

theorem Owned.replace (h : Owned s) (r : Replacement) (next : Option Replacement) :
    Owned (s.replace r next) :=
  h.preserves (.refl _) rfl rfl rfl rfl

theorem mem_held {id channel : Nat} (h : s.dedicatedChannels.get? id = some channel) :
    channel ∈ s.held :=
  List.mem_append_right _ (List.mem_map.mpr ⟨(id, channel), OrderedMap.get?_eq_some_iff.mp h, rfl⟩)

/-- `close()` reaches every registered channel. -/
theorem Owned.close (h : Owned s) : Owned s.close := by
  obtain ⟨opened, heq, hget⟩ := closeChannels_frame s.held { s with
    closed := true
    closes := (s.held.filter fun channel =>
      (s.opened.get? channel).any fun r => r.live && !r.closing) :: s.closes }
  have hopened : Preserves s.opened opened := preserves_close hget
  have hclosing : ∀ channel r' id, opened.get? channel = some r' → r'.role = .dedicated id →
      r'.live → r'.closing := fun channel r' id hr' hrole' hlive => by
    obtain ⟨r, hr, hrole, hsame, hkeeps⟩ := hopened.back channel r' id hr' hrole'
    rcases h.owned channel r id hr hrole (hsame.trans hlive) with hc | hid
    · exact hkeeps hc
    · rw [hget, if_pos (mem_held hid)] at hr'
      obtain ⟨r₀, -, rfl⟩ := Option.map_eq_some_iff.mp hr'
      exact Bool.or_eq_true_iff.mpr (.inr hlive)
  unfold State.close
  dsimp only
  rw [heq]
  refine ⟨fun id channel hid => ?_, fun channel r' id hr' hrole' hlive =>
    .inl (hclosing channel r' id hr' hrole' hlive), fun _ => hclosing, fun p hp => ?_, fun _ => rfl⟩
  · obtain ⟨r, hr, hrole, hlive⟩ := h.registered id channel hid
    obtain ⟨r', hr', hrole', hsame⟩ := hopened.forth channel r id hr hrole
    exact ⟨r', hr', hrole', hsame.trans hlive⟩
  · obtain ⟨r, hr, hrole⟩ := h.got p hp
    obtain ⟨r', hr', hrole', -⟩ := hopened.forth p.2 r p.1 hr hrole
    exact ⟨r', hr', hrole'⟩

theorem Owned.emitClose (h : Owned s) {channel : Nat} {r : Channel}
    (hr : s.opened.get? channel = some r) (hok : Exclusive s (.emitsClose channel)) :
    Owned (s.emitClose channel r) := by
  obtain ⟨role, live, closing⟩ := r
  unfold State.emitClose
  dsimp only
  cases role with
  | slot index =>
    have hslot : Preserves s.opened (s.opened.set channel ⟨.slot index, false, closing⟩) :=
      preserves_slot _ rfl fun r' hr' => by cases hr.symm.trans hr'; rfl
    dsimp only
    split
    · exact h.preserves hslot rfl rfl rfl rfl
    · exact h.preserves hslot rfl rfl rfl rfl
  | dedicated id =>
    -- only this channel may be registered under its id
    have hsole : s.closed = false → ∀ other, s.dedicatedChannels.get? id = some other →
        other = channel := fun hopen other hother => hok hopen _ hr other hother
    refine ⟨fun id' channel' hid => ?_, fun channel' r' id' hr' hrole' hlive => ?_,
      fun hshut channel' r' id' hr' hrole' hlive => ?_, fun p hp => ?_, h.closes⟩
    · have hne : id' ≠ id := fun heq => by
        rw [heq, OrderedMap.get?_erase_self] at hid
        cases hid
      rw [OrderedMap.get?_erase, if_neg hne] at hid
      obtain ⟨r', hr', hrole', hlive'⟩ := h.registered id' channel' hid
      refine ⟨r', ?_, hrole', hlive'⟩
      rw [OrderedMap.get?_set, if_neg]
      · exact hr'
      · rintro rfl
        cases hr.symm.trans hr'
        cases hrole'
        exact hne rfl
    · rw [OrderedMap.get?_set] at hr'
      split at hr'
      · cases hr'
        cases hlive
      · next hne =>
        rcases h.owned channel' r' id' hr' hrole' hlive with hc | hid
        · exact .inl hc
        · cases hclosed : s.closed with
          | true => exact .inl (h.shut hclosed channel' r' id' hr' hrole' hlive)
          | false =>
            refine .inr ?_
            rw [OrderedMap.get?_erase, if_neg]
            · exact hid
            · rintro rfl
              exact hne (hsole hclosed channel' hid)
    · rw [OrderedMap.get?_set] at hr'
      split at hr'
      · cases hr'
        cases hlive
      · exact h.shut hshut channel' r' id' hr' hrole' hlive
    · obtain ⟨r', hr', hrole'⟩ := h.got p hp
      rw [OrderedMap.get?_set]
      split
      · next heq =>
        rw [heq] at hr'
        cases hr.symm.trans hr'
        exact ⟨_, rfl, hrole'⟩
      · exact ⟨r', hr', hrole'⟩

theorem Owned.getDedicatedChannel (h : Owned s) (id : Nat) : Owned (s.getDedicatedChannel id) := by
  unfold State.getDedicatedChannel
  split
  · next channel hid =>
    refine ⟨h.registered, h.owned, h.shut, fun p hp => ?_, h.closes⟩
    rcases List.mem_cons.mp hp with rfl | hp
    · obtain ⟨r, hr, hrole, -⟩ := h.registered id channel hid
      exact ⟨r, hr, hrole⟩
    · exact h.got p hp
  · exact h.preserves (.refl _) rfl rfl rfl rfl

theorem Owned.dedicatedOpens (h : Owned s) {id channel : Nat} (hfresh : channel ∉ s.opened)
    (hok : Exclusive s (.dedicatedOpens id channel)) : Owned (s.dedicatedOpens id channel) := by
  obtain ⟨hopen, hfree⟩ := hok
  have hold : ∀ {channel' r}, s.opened.get? channel' = some r →
      (s.opened.set channel ⟨.dedicated id, true, false⟩).get? channel' = some r := fun hr => by
    rw [OrderedMap.get?_set, if_neg]
    · exact hr
    · rintro rfl
      exact hfresh (OrderedMap.mem_of_get? hr)
  refine ⟨fun id' channel' hid => ?_, fun channel' r' id' hr' hrole' hlive => ?_, fun hshut => ?_,
    fun p hp => ?_, h.closes⟩
  · replace hid : (s.dedicatedChannels.set id channel).get? id' = some channel' := hid
    rw [OrderedMap.get?_set] at hid
    split at hid
    · next heq =>
      cases hid
      exact ⟨_, OrderedMap.get?_set_self _ _ _, by rw [heq], rfl⟩
    · obtain ⟨r, hr, hrole, hlive⟩ := h.registered id' channel' hid
      exact ⟨r, hold hr, hrole, hlive⟩
  · replace hr' : (s.opened.set channel ⟨.dedicated id, true, false⟩).get? channel' = some r' := hr'
    rw [OrderedMap.get?_set] at hr'
    split at hr'
    · next heq =>
      cases hr'
      cases hrole'
      exact .inr (heq ▸ OrderedMap.get?_set_self _ _ _)
    · refine (h.owned channel' r' id' hr' hrole' hlive).imp_right fun hid => ?_
      refine (OrderedMap.get?_set _ _ _ _).trans ((if_neg ?_).trans hid)
      rintro rfl
      exact hfree (OrderedMap.mem_of_get? hid)
  · cases hopen.symm.trans hshut
  · rcases List.mem_cons.mp hp with rfl | hp
    · exact ⟨_, OrderedMap.get?_set_self _ _ _, rfl⟩
    · obtain ⟨r, hr, hrole⟩ := h.got p hp
      exact ⟨r, hold hr, hrole⟩

theorem Owned.releaseDedicatedChannel (h : Owned s) (id : Nat) :
    Owned (s.releaseDedicatedChannel id) := by
  unfold State.releaseDedicatedChannel
  split
  · exact h
  · next channel hid =>
    obtain ⟨opened, heq, hget⟩ := closeChannel_frame
      { s with dedicatedChannels := s.dedicatedChannels.erase id } channel
    have hopened : Preserves s.opened opened := preserves_close hget
    rw [heq]
    refine ⟨fun id' channel' hid' => ?_, fun channel' r' id' hr' hrole' hlive => ?_,
      fun hshut channel' r' id' hr' hrole' hlive => ?_, fun p hp => ?_, h.closes⟩
    · replace hid' : (s.dedicatedChannels.erase id).get? id' = some channel' := hid'
      rw [OrderedMap.get?_erase] at hid'
      split at hid'
      · cases hid'
      · obtain ⟨r, hr, hrole, hlive⟩ := h.registered id' channel' hid'
        obtain ⟨r', hr', hrole', hsame⟩ := hopened.forth channel' r id' hr hrole
        exact ⟨r', hr', hrole', hsame.trans hlive⟩
    · obtain ⟨r, hr, hrole, hsame, hkeeps⟩ := hopened.back channel' r' id' hr' hrole'
      rcases h.owned channel' r id' hr hrole (hsame.trans hlive) with hc | hid'
      · exact .inl (hkeeps hc)
      · by_cases hne : id' = id
        · subst hne
          cases hid.symm.trans hid'
          replace hr' : opened.get? channel = some r' := hr'
          rw [hget, if_pos rfl] at hr'
          obtain ⟨r₀, -, rfl⟩ := Option.map_eq_some_iff.mp hr'
          exact .inl (Bool.or_eq_true_iff.mpr (.inr hlive))
        · exact .inr ((OrderedMap.get?_erase _ _ _).trans ((if_neg hne).trans hid'))
    · obtain ⟨r, hr, hrole, hsame, hkeeps⟩ := hopened.back channel' r' id' hr' hrole'
      exact hkeeps (h.shut hshut channel' r id' hr hrole (hsame.trans hlive))
    · obtain ⟨r, hr, hrole⟩ := h.got p hp
      obtain ⟨r', hr', hrole', -⟩ := hopened.forth p.2 r p.1 hr hrole
      exact ⟨r', hr', hrole'⟩

/-- The registry of a closed pool may go: every channel in it is on its way out. -/
theorem Owned.closeResumes (h : Owned s) {awaited : List Nat} (hmem : awaited ∈ s.closes) :
    Owned (s.closeResumes awaited) := by
  have hclosed : s.closed := h.closes (List.ne_nil_of_mem hmem)
  exact ⟨nofun, fun channel r id hr hrole hlive => .inl (h.shut hclosed channel r id hr hrole hlive),
    h.shut, h.got, fun _ => hclosed⟩

theorem Steps.owned {event : Event} (H : Steps s event s') (hok : Exclusive s event)
    (h : Owned s) : Owned s' := by
  cases H with
  | @opens opens index channel hinit hpending hfresh =>
    have hk : Owned { s with initializing := some (opens.set index .fulfilled) } :=
      h.preserves (.refl _) rfl rfl rfl rfl
    exact hk.createPoolChannel index hfresh
  | openFails => exact h.preserves (.refl _) rfl rfl rfl rfl
  | initialized hinit hsettled =>
    have hk : Owned { s with initializing := none } := h.preserves (.refl _) rfl rfl rfl rfl
    unfold State.initialized
    dsimp only
    split
    · exact hk.close
    · exact hk
  | emitsClose hr => exact h.emitClose hr hok
  | replacementOpens hmem hfresh => exact (h.createPoolChannel _ hfresh).replace _ _
  | replacementFails => exact h.replace _ _
  | replaced =>
    unfold State.replaced
    split
    · exact (h.closeChannel _).replace _ _
    · exact h.replace _ _
  | slept => exact h.replace _ _
  | discarded => exact h.replace _ _
  | getChannel =>
    obtain ⟨index, heq⟩ := getChannel_frame s
    rw [heq]
    exact h.preserves (.refl _) rfl rfl rfl rfl
  | getDedicatedChannel => exact h.getDedicatedChannel _
  | dedicatedOpens hmem hfresh => exact h.dedicatedOpens hfresh hok
  | dedicatedFails => exact h.preserves (.refl _) rfl rfl rfl rfl
  | releaseDedicatedChannel => exact h.releaseDedicatedChannel _
  | close => exact h.close
  | closeResumes hmem hdead => exact h.closeResumes hmem

theorem not_closing_of_settled (h : s.settled) {channel : Nat} {r : Channel}
    (hr : s.opened.get? channel = some r) (hlive : r.live) : r.closing = false := by
  simp only [State.settled, Bool.and_eq_true, List.all_eq_true] at h
  simpa [hlive] using h.2 _ (OrderedMap.get?_eq_some_iff.mp hr)

theorem closing_of_closed {opened : OrderedMap Nat Channel} {channel : Nat} {r : Channel}
    (hr : s.opened.get? channel = some r) (hlive : r.live)
    (hget : opened.get? channel = (s.opened.get? channel).map Channel.close) :
    (opened.get? channel).any (·.closing) := by
  simp [hget, hr, Channel.close, hlive]

theorem Owned.oneEach (h : Owned s) (hsettled : s.settled) : OneEach s := by
  have hregistered : ∀ channel r id, s.opened.get? channel = some r → r.role = .dedicated id →
      r.live → s.dedicatedChannels.get? id = some channel := fun channel r id hr hrole hlive => by
    rcases h.owned channel r id hr hrole hlive with hc | hid
    · cases (not_closing_of_settled hsettled hr hlive).symm.trans hc
    · exact hid
  have hgot : ∀ id channel, (id, channel) ∈ s.got → s.live channel →
      s.dedicatedChannels.get? id = some channel := fun id channel hmem hlive => by
    obtain ⟨r, hr, hrole⟩ := h.got _ hmem
    exact hregistered channel r id hr hrole (by simpa [State.live, hr] using hlive)
  refine ⟨hregistered, fun id channel channel' hmem hmem' hlive hlive' => ?_,
    fun id channel hid => ⟨?_, ?_⟩, fun hshut channel r id hr hrole => ?_⟩
  · exact Option.some_inj.mp ((hgot id channel hmem hlive).symm.trans (hgot id channel' hmem' hlive'))
  · obtain ⟨r, hr, -, hlive⟩ := h.registered id channel hid
    obtain ⟨opened, heq, hget⟩ := closeChannel_frame
      { s with dedicatedChannels := s.dedicatedChannels.erase id } channel
    have hrelease : s.releaseDedicatedChannel id = { s with
        dedicatedChannels := s.dedicatedChannels.erase id
        opened } := by
      unfold State.releaseDedicatedChannel
      rw [hid]
      exact heq
    rw [hrelease]
    exact closing_of_closed hr hlive ((hget channel).trans (if_pos rfl))
  · obtain ⟨r, hr, -, hlive⟩ := h.registered id channel hid
    obtain ⟨opened, heq, hget⟩ := closeChannels_frame s.held { s with
      closed := true
      closes := (s.held.filter fun channel =>
        (s.opened.get? channel).any fun r => r.live && !r.closing) :: s.closes }
    unfold State.close
    dsimp only
    rw [heq]
    exact closing_of_closed hr hlive ((hget channel).trans (if_pos (mem_held hid)))
  · cases hlive : r.live with
    | false => rfl
    | true =>
      cases (not_closing_of_settled hsettled hr hlive).symm.trans
        (h.shut hshut channel r id hr hrole hlive)

/-- Every open dedicated channel belongs to its owner, in every run in which none lands on a closed
pool or an id in use, or is lost while another one is under its id. -/
theorem one_channel_per_owner {size : Nat} (hr : Reach step Exclusive (start size) s)
    (hsettled : s.settled) : OneEach s :=
  (hr.invariant (owned_start size) fun h hok hs => (step_cases hs).owned hok h).oneEach hsettled

/-! ## Runs -/

/-- Released, and opened again. -/
theorem one_channel_per_owner_run : ∃ s, Reach step Exclusive (start 1) s ∧ s.settled ∧
    s.dedicatedChannels.get? 7 = some 2 ∧ OneEach s := by
  have hrun : (run step Exclusive (start 1) [.opens 0 0, .initialized, .getDedicatedChannel 7,
      .dedicatedOpens 7 1, .getDedicatedChannel 7, .releaseDedicatedChannel 7, .emitsClose 1,
      .getDedicatedChannel 7, .dedicatedOpens 7 2]).any (fun s =>
        decide (s.settled ∧ s.dedicatedChannels.get? 7 = some 2)) := by
    decide +kernel
  obtain ⟨s, hs, h⟩ := (Option.any_eq_true _ _).mp hrun
  have hr := reach_of_run hs
  obtain ⟨hsettled, hid⟩ := of_decide_eq_true h
  exact ⟨s, hr, hsettled, hid, one_channel_per_owner hr hsettled⟩

/-- Two callers ask for the same channel before it is there: each opens one, and only the last is
registered. -/
theorem dedicated_channel_leaked : ∃ s, Reach step anyStep (start 1) s ∧ s.settled ∧
    ¬ OneEach s := by
  have hrun : (run step anyStep (start 1) [.opens 0 0, .initialized, .getDedicatedChannel 7,
      .getDedicatedChannel 7, .dedicatedOpens 7 1, .dedicatedOpens 7 2]).any (fun s =>
        decide (s.settled ∧ s.opened.get? 1 = some ⟨.dedicated 7, true, false⟩ ∧
          s.dedicatedChannels.get? 7 = some 2)) := by
    decide +kernel
  obtain ⟨s, hs, h⟩ := (Option.any_eq_true _ _).mp hrun
  obtain ⟨hsettled, hopen, hid⟩ := of_decide_eq_true h
  refine ⟨s, reach_of_run hs, hsettled, fun hone => ?_⟩
  cases hid.symm.trans (hone.registered 1 _ 7 hopen rfl rfl)

end ChannelPool
end RabbitMQ
