import RabbitMQ.Connection.ChannelPool.Dedicated

/-! What a pool does with one id that a single caller uses once: whatever else happens in the pool,
the id goes from unused to requested, from there to one registered channel, and from there to none
that stays open. -/

namespace RabbitMQ
namespace ChannelPool

open Transition

variable {s s' : State} {id : Nat}

/-- Where an id is in a pool. -/
inductive Place where
  | absent
  /-- a call of `getDedicatedChannel` awaits a channel -/
  | requested
  | registered (channel : Nat)
  /-- it had the channel, and is not registered any more -/
  | left (channel : Nat)

namespace Place

def requests : Place → Nat
  | .requested => 1
  | .absent | .registered _ | .left _ => 0

/-- What `dedicatedChannels` has. -/
def entry : Place → Option Nat
  | .registered channel => some channel
  | .absent | .requested | .left _ => none

/-- The one channel the id ever had. -/
def owns : Place → Option Nat
  | .registered channel | .left channel => some channel
  | .absent | .requested => none

/-- Its channel, if it is registered, is taken out of the registry. -/
def dropped : Place → Place
  | .registered channel => .left channel
  | .absent => .absent
  | .requested => .requested
  | .left channel => .left channel

@[simp] theorem dropped_requests (place : Place) : place.dropped.requests = place.requests := by
  cases place <;> rfl

@[simp] theorem dropped_entry (place : Place) : place.dropped.entry = none := by
  cases place <;> rfl

@[simp] theorem dropped_owns (place : Place) : place.dropped.owns = place.owns := by
  cases place <;> rfl

end Place

/-- Nobody but its own caller uses the id. -/
structure At (s : State) (id : Nat) (place : Place) : Prop where
  requests : s.requests.count id = place.requests
  entry : s.dedicatedChannels.get? id = place.entry
  opened : ∀ channel, place.owns = some channel →
    ∃ r, s.opened.get? channel = some r ∧ r.role = .dedicated id
  /-- an open channel of the id is on its way out, or registered in an open pool -/
  owned : ∀ channel r, s.opened.get? channel = some r → r.role = .dedicated id →
    place.owns = some channel ∧
      (r.live → r.closing ∨ (place.entry = some channel ∧ s.closed = false))
  closes : s.closes ≠ [] → s.closed

theorem at_start (size id : Nat) : At (start size) id .absent :=
  ⟨rfl, rfl, fun _ h => (by cases h), fun _ _ h => (by cases h), fun h => absurd rfl h⟩

/-- The channels of the id are the same ones; one may be lost, or start to close. -/
structure Kept (id : Nat) (opened opened' : OrderedMap Nat Channel) : Prop where
  back : ∀ channel r', opened'.get? channel = some r' → r'.role = .dedicated id →
    ∃ r, opened.get? channel = some r ∧ r.role = .dedicated id ∧ (r'.live → r.live) ∧
      (r.closing → r'.closing)
  forth : ∀ channel r, opened.get? channel = some r → r.role = .dedicated id →
    ∃ r', opened'.get? channel = some r' ∧ r'.role = .dedicated id

theorem Kept.refl (opened : OrderedMap Nat Channel) : Kept id opened opened :=
  ⟨fun _ r' h hrole => ⟨r', h, hrole, fun h => h, fun h => h⟩, fun _ r h hrole => ⟨r, h, hrole⟩⟩

theorem Preserves.kept {opened opened' : OrderedMap Nat Channel} (h : Preserves opened opened') :
    Kept id opened opened' := by
  refine ⟨fun channel r' hr' hrole' => ?_, fun channel r hr hrole => ?_⟩
  · obtain ⟨r, hr, hrole, hlive, hclosing⟩ := h.back channel r' id hr' hrole'
    exact ⟨r, hr, hrole, fun hl => hlive.trans hl, hclosing⟩
  · obtain ⟨r', hr', hrole', -⟩ := h.forth channel r id hr hrole
    exact ⟨r', hr', hrole'⟩

/-- A channel of another role is entered or changed. -/
theorem kept_set {opened : OrderedMap Nat Channel} {channel : Nat} (r : Channel)
    (hrole : r.role ≠ .dedicated id)
    (hold : ∀ r', opened.get? channel = some r' → r'.role ≠ .dedicated id) :
    Kept id opened (opened.set channel r) := by
  refine ⟨fun k r' hr' hrole' => ?_, fun k r' hr' hrole' => ?_⟩
  · rw [OrderedMap.get?_set] at hr'
    split at hr'
    · cases hr'
      exact absurd hrole' hrole
    · exact ⟨r', hr', hrole', fun h => h, fun h => h⟩
  · rw [OrderedMap.get?_set]
    split
    · next hk =>
      subst hk
      exact absurd hrole' (hold r' hr')
    · exact ⟨r', hr', hrole'⟩

theorem not_dedicated_of_fresh {channel : Nat} (hfresh : channel ∉ s.opened) :
    ∀ r', s.opened.get? channel = some r' → r'.role ≠ .dedicated id :=
  fun _ hr' _ => hfresh (OrderedMap.mem_of_get? hr')

theorem At.keep {place : Place} (h : At s id place) (hopened : Kept id s.opened s'.opened)
    (hrequests : s'.requests.count id = s.requests.count id)
    (hdedicated : s'.dedicatedChannels.get? id = s.dedicatedChannels.get? id)
    (hclosed : s'.closed = s.closed) (hcloses : s'.closes = s.closes) : At s' id place := by
  refine ⟨hrequests.trans h.requests, hdedicated.trans h.entry, fun channel howns => ?_,
    fun channel r' hr' hrole' => ?_, fun hne => ?_⟩
  · obtain ⟨r, hr, hrole⟩ := h.opened channel howns
    exact hopened.forth channel r hr hrole
  · obtain ⟨r, hr, hrole, hlive, hclosing⟩ := hopened.back channel r' hr' hrole'
    obtain ⟨howns, hout⟩ := h.owned channel r hr hrole
    refine ⟨howns, fun hl => ?_⟩
    rw [hclosed]
    exact (hout (hlive hl)).imp_left hclosing
  · rw [hclosed]
    exact h.closes (hcloses ▸ hne)

theorem At.same {place : Place} (h : At s id place) (hopened : s'.opened = s.opened)
    (hrequests : s'.requests = s.requests)
    (hdedicated : s'.dedicatedChannels = s.dedicatedChannels) (hclosed : s'.closed = s.closed)
    (hcloses : s'.closes = s.closes) : At s' id place :=
  h.keep (hopened ▸ .refl _) (by rw [hrequests]) (by rw [hdedicated]) hclosed hcloses

/-- The id was not registered, or is not any more. -/
theorem At.leave {place : Place} (h : At s id place) (hopened : Kept id s.opened s'.opened)
    (hrequests : s'.requests.count id = s.requests.count id)
    (hdedicated : s'.dedicatedChannels.get? id = none)
    (hgone : ∀ channel r', s'.opened.get? channel = some r' → r'.role = .dedicated id → r'.live →
      r'.closing) (hcloses : s'.closes ≠ [] → s'.closed) : At s' id place.dropped := by
  refine ⟨?_, ?_, fun channel hc => ?_, fun channel r' hr' hrole' => ?_, hcloses⟩
  · rw [Place.dropped_requests]
    exact hrequests.trans h.requests
  · rw [Place.dropped_entry]
    exact hdedicated
  · rw [Place.dropped_owns] at hc
    obtain ⟨r, hr, hrole⟩ := h.opened channel hc
    exact hopened.forth channel r hr hrole
  · rw [Place.dropped_owns]
    obtain ⟨r, hr, hrole, -⟩ := hopened.back channel r' hr' hrole'
    exact ⟨(h.owned channel r hr hrole).1, fun hl => .inl (hgone channel r' hr' hrole' hl)⟩

/-! ## What the pool does on its own -/

theorem At.createPoolChannel {place : Place} (h : At s id place) (index : Nat) {channel : Nat}
    (hfresh : channel ∉ s.opened) : At (s.createPoolChannel index channel) id place :=
  h.keep (kept_set ⟨.slot index, true, false⟩ (fun h => by cases h) (not_dedicated_of_fresh hfresh))
    rfl rfl rfl rfl

theorem At.closeChannel {place : Place} (h : At s id place) (channel : Nat) :
    At (s.closeChannel channel) id place := by
  obtain ⟨opened, heq, hget⟩ := closeChannel_frame s channel
  rw [heq]
  exact h.keep (preserves_close hget).kept rfl rfl rfl rfl

theorem At.replace {place : Place} (h : At s id place) (r : Replacement)
    (next : Option Replacement) : At (s.replace r next) id place :=
  h.same rfl rfl rfl rfl rfl

/-- `close()` reaches the channel of the id. -/
theorem At.close {place : Place} (h : At s id place) : At s.close id place := by
  obtain ⟨opened, heq, hget⟩ := closeChannels_frame s.held { s with
    closed := true
    closes := (s.held.filter fun channel =>
      (s.opened.get? channel).any fun r => r.live && !r.closing) :: s.closes }
  have hkept : Kept id s.opened opened := (preserves_close hget).kept
  unfold State.close
  dsimp only
  rw [heq]
  refine ⟨h.requests, h.entry, fun channel howns => ?_, fun channel r' hr' hrole' => ?_,
    fun _ => rfl⟩
  · obtain ⟨r, hr, hrole⟩ := h.opened channel howns
    exact hkept.forth channel r hr hrole
  · obtain ⟨r, hr, hrole, hlive, hclosing⟩ := hkept.back channel r' hr' hrole'
    obtain ⟨howns, hout⟩ := h.owned channel r hr hrole
    refine ⟨howns, fun hl => .inl ?_⟩
    rcases hout (hlive hl) with hout | ⟨hentry, -⟩
    · exact hclosing hout
    · dsimp only at hr'
      rw [hget, if_pos (mem_held (h.entry.trans hentry))] at hr'
      obtain ⟨r₀, -, rfl⟩ := Option.map_eq_some_iff.mp hr'
      exact Bool.or_eq_true_iff.mpr (.inr hl)

/-- The registry of a closed pool goes. -/
theorem At.closeResumes {place : Place} (h : At s id place) (hclosed : s.closed)
    (awaited : List Nat) : At (s.closeResumes awaited) id place.dropped := by
  refine h.leave (.refl _) rfl rfl (fun channel r hr hrole hl => ?_) fun _ => hclosed
  rcases (h.owned channel r hr hrole).2 hl with hout | ⟨-, hopen⟩
  · exact hout
  · cases hopen.symm.trans hclosed

/-- A channel is lost; the one of the id drops it from the registry. -/
theorem At.emitClose {place : Place} (h : At s id place) {channel : Nat} {r : Channel}
    (hr : s.opened.get? channel = some r) :
    At (s.emitClose channel r) id place ∨ At (s.emitClose channel r) id place.dropped := by
  obtain ⟨role, live, closing⟩ := r
  have hdead : role ≠ .dedicated id →
      Kept id s.opened (s.opened.set channel ⟨role, false, closing⟩) := by
    intro hne
    refine kept_set _ hne fun r' hr' heq => ?_
    cases hr.symm.trans hr'
    exact hne heq
  unfold State.emitClose
  dsimp only
  cases role with
  | slot index =>
    have hkept := hdead fun h => by cases h
    dsimp only
    split
    · exact .inl (h.keep hkept rfl rfl rfl rfl)
    · exact .inl (h.keep hkept rfl rfl rfl rfl)
  | dedicated id' =>
    by_cases hid : id' = id
    · subst hid
      refine .inr (h.leave ⟨fun k r' hr' hrole' => ?_, fun k r' hr' hrole' => ?_⟩ rfl
        (OrderedMap.get?_erase_self _ _) (fun k r' hr' hrole' hl => ?_) h.closes)
      · rw [OrderedMap.get?_set] at hr'
        split at hr'
        · next hk =>
          cases hr'
          rw [hk]
          exact ⟨_, hr, rfl, (fun hl => by cases hl), fun hc => hc⟩
        · exact ⟨r', hr', hrole', fun hl => hl, fun hc => hc⟩
      · rw [OrderedMap.get?_set]
        split
        · exact ⟨_, rfl, rfl⟩
        · exact ⟨r', hr', hrole'⟩
      · dsimp only at hr'
        rw [OrderedMap.get?_set] at hr'
        split at hr'
        · cases hr'
          cases hl
        · next hne =>
          have hone := (h.owned k r' hr' hrole').1.symm.trans (h.owned channel _ hr rfl).1
          cases hone
          exact absurd rfl hne
    · have hkept := hdead fun h => hid (Role.dedicated.inj h)
      refine .inl (h.keep hkept rfl ?_ rfl rfl)
      dsimp only
      rw [OrderedMap.get?_erase, if_neg (Ne.symm hid)]

/-- The events by which its own caller uses an id. -/
def Event.uses : Event → Option Nat
  | .getDedicatedChannel id | .dedicatedOpens id _ | .dedicatedFails id
  | .releaseDedicatedChannel id => some id
  | _ => none

/-- Whatever others do, the id stays where it is, or its channel is dropped from the registry. -/
theorem Steps.at {event : Event} (H : Steps s event s') {place : Place} (h : At s id place)
    (huses : event.uses ≠ some id) :
    At s' id place ∨ At s' id place.dropped := by
  have hother : ∀ {id'}, event.uses = some id' → id' ≠ id := by
    intro id' hid heq
    exact huses (hid.trans (congrArg some heq))
  cases H with
  | @opens opens index channel hinit hpending hfresh =>
    have hk : At { s with initializing := some (opens.set index .fulfilled) } id place :=
      h.same rfl rfl rfl rfl rfl
    exact .inl (hk.createPoolChannel index hfresh)
  | openFails => exact .inl (h.same rfl rfl rfl rfl rfl)
  | initialized hinit hsettled =>
    have hk : At { s with initializing := none } id place := h.same rfl rfl rfl rfl rfl
    unfold State.initialized
    dsimp only
    split
    · exact .inl hk.close
    · exact .inl hk
  | emitsClose hr => exact h.emitClose hr
  | replacementOpens hmem hfresh => exact .inl ((h.createPoolChannel _ hfresh).replace _ _)
  | replacementFails => exact .inl (h.replace _ _)
  | replaced =>
    unfold State.replaced
    split
    · exact .inl ((h.closeChannel _).replace _ _)
    · exact .inl (h.replace _ _)
  | slept => exact .inl (h.replace _ _)
  | discarded => exact .inl (h.replace _ _)
  | getChannel =>
    obtain ⟨index, heq⟩ := getChannel_frame s
    rw [heq]
    exact .inl (h.same rfl rfl rfl rfl rfl)
  | @getDedicatedChannel id' =>
    have hne := hother rfl
    unfold State.getDedicatedChannel
    split
    · exact .inl (h.same rfl rfl rfl rfl rfl)
    · exact .inl (h.keep (.refl _) (List.count_cons_of_ne (by simpa using hne)) rfl rfl rfl)
  | @dedicatedOpens id' channel hmem hfresh =>
    have hne := hother rfl
    refine .inl (h.keep (kept_set _ (fun heq => hne (Role.dedicated.inj heq))
      (not_dedicated_of_fresh hfresh)) (List.count_erase_of_ne (Ne.symm hne)) ?_ rfl rfl)
    exact (OrderedMap.get?_set _ _ _ _).trans (if_neg (Ne.symm hne))
  | @dedicatedFails id' hmem =>
    have hne := hother rfl
    exact .inl (h.keep (.refl _) (List.count_erase_of_ne (Ne.symm hne)) rfl rfl rfl)
  | @releaseDedicatedChannel id' =>
    have hne := hother rfl
    unfold State.releaseDedicatedChannel
    split
    · exact .inl h
    · next channel hid =>
      refine .inl (At.closeChannel ?_ channel)
      exact h.keep (.refl _) rfl ((OrderedMap.get?_erase _ _ _).trans (if_neg (Ne.symm hne))) rfl
        rfl
  | close => exact .inl h.close
  | closeResumes hmem hdead =>
    exact .inr (h.closeResumes (h.closes (List.ne_nil_of_mem hmem)) _)

/-! ## What its own caller does -/

theorem At.getDedicatedChannel (h : At s id .absent) : At (s.getDedicatedChannel id) id .requested := by
  have hnone : s.dedicatedChannels.get? id = none := h.entry
  unfold State.getDedicatedChannel
  rw [hnone]
  refine ⟨?_, h.entry, fun _ howns => (by cases howns), h.owned, h.closes⟩
  dsimp only
  rw [List.count_cons_self, h.requests]
  rfl

/-- The channel is there, and the pool is open. -/
theorem At.dedicatedOpens (h : At s id .requested) (channel : Nat) (hopen : s.closed = false) :
    At (s.dedicatedOpens id channel) id (.registered channel) := by
  refine ⟨?_, OrderedMap.get?_set_self _ _ _, fun k howns => ?_, fun k r hr hrole => ?_, h.closes⟩
  · dsimp only [State.dedicatedOpens]
    rw [List.count_erase_self, h.requests]
    rfl
  · cases howns
    exact ⟨_, OrderedMap.get?_set_self _ _ _, rfl⟩
  · dsimp only [State.dedicatedOpens] at hr
    rw [OrderedMap.get?_set] at hr
    split at hr
    · next hk =>
      rw [hk]
      exact ⟨rfl, fun _ => .inr ⟨rfl, hopen⟩⟩
    · cases (h.owned k r hr hrole).1

theorem At.dedicatedFails (h : At s id .requested) :
    At { s with requests := s.requests.erase id } id .absent := by
  refine ⟨?_, h.entry, fun _ howns => (by cases howns), h.owned, h.closes⟩
  dsimp only
  rw [List.count_erase_self, h.requests]
  rfl

theorem At.releaseDedicatedChannel {place : Place} (h : At s id place) :
    At (s.releaseDedicatedChannel id) id place.dropped := by
  unfold State.releaseDedicatedChannel
  split
  · next hnone =>
    refine h.leave (.refl _) rfl hnone (fun channel r hr hrole hl => ?_) h.closes
    rcases (h.owned channel r hr hrole).2 hl with hout | ⟨hentry, -⟩
    · exact hout
    · cases (hnone.symm.trans h.entry).trans hentry
  · next channel hid =>
    obtain ⟨opened, heq, hget⟩ := closeChannel_frame
      { s with dedicatedChannels := s.dedicatedChannels.erase id } channel
    have hkept : Kept id s.opened opened := (preserves_close hget).kept
    rw [heq]
    refine h.leave hkept rfl (OrderedMap.get?_erase_self _ _) (fun k r' hr' hrole' hl => ?_) h.closes
    obtain ⟨r, hr, hrole, hlive, hclosing⟩ := hkept.back k r' hr' hrole'
    rcases (h.owned k r hr hrole).2 (hlive hl) with hout | ⟨hentry, -⟩
    · exact hclosing hout
    · have hk : k = channel := Option.some.inj (hentry.symm.trans (h.entry.symm.trans hid))
      dsimp only at hr'
      rw [hget, if_pos hk] at hr'
      obtain ⟨r₀, -, rfl⟩ := Option.map_eq_some_iff.mp hr'
      exact Bool.or_eq_true_iff.mpr (.inr hl)

end ChannelPool
end RabbitMQ
