import RabbitMQ.Messaging.Rpc.ReplyRoute

/-! The reply channel belongs to the current connection, and no listener outlives it.

A setup begins only with the slot empty, and the slot is emptied only after its setup settled; so
one setup runs at a time, and while it runs there is no reply channel. All listeners are therefore
those of the reply channel, or there are none. -/

namespace RabbitMQ
namespace ReplyRoute

open Transition

variable {s s' : State} {k : Nat} {setup setup' : Setup} {channel : Nat}

structure Fresh (s : State) : Prop where
  single : (s.setups.filter fun setup => !setup.stage.settled).length ≤ 1
  /-- the setup of the reply channel began and finished in the current epoch -/
  current : ∀ channel, s.replyChannel = some channel → ∃ setup ∈ s.setups,
    setup.epoch = s.connectionEpoch ∧ setup.stage = .installed channel s.connectionEpoch
  listening : ∀ channel, s.replyChannel = some channel → ∀ kind,
    s.attached.countP (fun l => l.channel = channel ∧ l.kind = kind) = 1
  nowhere : (∀ setup ∈ s.setups, setup.stage.settled) →
    ∀ l ∈ s.attached, s.replyChannel = some l.channel

/-- There is no reply channel and no listener, or the two listeners of the reply channel. -/
inductive Routed (s : State) : Prop
  | down (hchannel : s.replyChannel = none) (hlisteners : s.replyListeners = none)
      (hattached : s.attached = [])
  | up {channel k : Nat} {setup : Setup} (hchannel : s.replyChannel = some channel)
      (hlisteners : s.replyListeners = some ⟨channel, k⟩)
      (hattached : s.attached = [⟨channel, k, .onReturn⟩, ⟨channel, k, .onClose⟩])
      (hk : s.setups[k]? = some setup) (hepoch : setup.epoch = s.connectionEpoch)
      (hstage : setup.stage = .installed channel s.connectionEpoch)

structure Kept (s : State) : Prop where
  slot : ∀ {k : Nat} {setup : Setup}, s.setups[k]? = some setup → setup.cleared = false →
    s.replySetupPromise = some k
  running : ∀ {k : Nat} {setup : Setup}, s.setups[k]? = some setup →
    setup.stage.settled = false → s.replyChannel = none ∧ setup.cleared = false
  routed : Routed s

theorem kept_start : Kept start := ⟨nofun, nofun, .down rfl rfl rfl⟩

/-- A step that leaves the route and the setups alone. -/
theorem Kept.same (h : Kept s) (hchannel : s'.replyChannel = s.replyChannel)
    (hslot : s'.replySetupPromise = s.replySetupPromise)
    (hlisteners : s'.replyListeners = s.replyListeners)
    (hepoch : s'.connectionEpoch = s.connectionEpoch) (hsetups : s'.setups = s.setups)
    (hattached : s'.attached = s.attached) : Kept s' := by
  refine ⟨?_, ?_, ?_⟩
  · rw [hsetups, hslot]
    exact h.slot
  · rw [hsetups, hchannel]
    exact h.running
  · cases h.routed with
    | down hc hl ha => exact .down (hchannel.trans hc) (hlisteners.trans hl) (hattached.trans ha)
    | up hc hl ha hk he hs =>
      rw [← hsetups] at hk
      rw [← hepoch] at he hs
      exact .up (hchannel.trans hc) (hlisteners.trans hl) (hattached.trans ha) hk he hs

/-! ## Taking the route down -/

theorem Routed.detach (h : Routed s) :
    s.detachReplyListeners = { s with attached := [], replyListeners := none } := by
  cases h with
  | down hchannel hlisteners hattached =>
    simp only [State.detachReplyListeners, hlisteners, ← hattached]
    rw [← hlisteners]
  | up hchannel hlisteners hattached =>
    simp only [State.detachReplyListeners, hlisteners, hattached, List.erase_cons_head]

/-- The state without a route. -/
def State.unrouted (s : State) : State :=
  { s with replyChannel := none, replyListeners := none, attached := [] }

theorem Kept.unrouted (h : Kept s) : Kept s.unrouted where
  slot := h.slot
  running hk hrunning := ⟨rfl, (h.running hk hrunning).2⟩
  routed := .down rfl rfl rfl

theorem handleConnectionLoss_eq (h : Routed s) :
    s.handleConnectionLoss = { s.unrouted with connectionEpoch := s.connectionEpoch + 1 } := by
  have hdetach : State.detachReplyListeners { s with connectionEpoch := s.connectionEpoch + 1 } =
      { s.detachReplyListeners with connectionEpoch := s.connectionEpoch + 1 } := by
    obtain ⟨_, _, replyListeners, _, _, _, _, _, _⟩ := s
    cases replyListeners <;> rfl
  rw [State.handleConnectionLoss, hdetach, h.detach]
  rfl

theorem Kept.handleConnectionLoss (h : Kept s) : Kept s.handleConnectionLoss := by
  rw [handleConnectionLoss_eq h.routed]
  exact ⟨h.unrouted.slot, h.unrouted.running, .down rfl rfl rfl⟩

theorem invalidate_cases (h : Routed s) (channel : Nat) :
    (s.replyChannel ≠ some channel ∧ s.invalidateReplyChannel channel = s) ∨
      (s.replyChannel = some channel ∧ s.invalidateReplyChannel channel = s.unrouted) := by
  by_cases hne : s.replyChannel ≠ some channel
  · exact .inl ⟨hne, if_pos hne⟩
  · refine .inr ⟨not_not.mp hne, (if_neg hne).trans ?_⟩
    rw [h.detach]
    rfl

theorem Kept.invalidate (h : Kept s) (channel : Nat) : Kept (s.invalidateReplyChannel channel) := by
  rcases invalidate_cases h.routed channel with ⟨-, heq⟩ | ⟨-, heq⟩
  · rw [heq]
    exact h
  · rw [heq]
    exact h.unrouted

theorem Kept.invalidates (h : Kept s) (listeners : List Listener) :
    Kept (listeners.foldl (fun s l => s.invalidateReplyChannel l.channel) s) := by
  induction listeners generalizing s with
  | nil => exact h
  | cons l listeners ih => exact ih (h.invalidate l.channel)

/-! ## A setup moves -/

/-- While there is a reply channel, a setup moves only by its flags. -/
theorem Kept.set (h : Kept s) (hk : s.setups[k]? = some setup)
    (hcleared : setup'.cleared = setup.cleared)
    (hrunning : setup'.stage.settled = false → s.replyChannel = none ∧ setup.cleared = false)
    (hsame : s.replyChannel ≠ none → setup'.epoch = setup.epoch ∧ setup'.stage = setup.stage) :
    Kept (s.setSetup k setup') where
  slot {j x} hj hopen := by
    rcases List.getElem?_set_cases hj with ⟨rfl, rfl⟩ | ⟨-, hj⟩
    · exact h.slot hk (hcleared ▸ hopen)
    · exact h.slot hj hopen
  running {j x} hj hopen := by
    rcases List.getElem?_set_cases hj with ⟨rfl, rfl⟩ | ⟨-, hj⟩
    · exact ⟨(hrunning hopen).1, hcleared.trans (hrunning hopen).2⟩
    · exact h.running hj hopen
  routed := by
    cases h.routed with
    | down hchannel hlisteners hattached => exact .down hchannel hlisteners hattached
    | @up channel j x hchannel hlisteners hattached hj hepoch hstage =>
      by_cases heq : k = j
      · subst heq
        cases hk.symm.trans hj
        obtain ⟨hepoch', hstage'⟩ := hsame (by simp [hchannel])
        refine .up hchannel hlisteners hattached ?_ (hepoch'.trans hepoch) (hstage'.trans hstage)
        exact List.getElem?_set_self (List.getElem?_eq_some_iff.mp hk).1
      · refine .up hchannel hlisteners hattached ?_ hepoch hstage
        exact (List.getElem?_set_ne heq).trans hj

/-- A setup that has not settled goes on. -/
theorem Kept.move (h : Kept s) (hk : s.setups[k]? = some setup)
    (hrunning : setup.stage.settled = false) (stage : Stage) :
    Kept (s.setSetup k { setup with stage }) := by
  have hnone := h.running hk hrunning
  exact h.set hk rfl (fun _ => hnone) fun hsome => absurd hnone.1 hsome

/-- The state with the route of a setup. -/
def State.routedBy (s : State) (k channel : Nat) : State :=
  { s with
    replyChannel := some channel
    replyListeners := some ⟨channel, k⟩
    attached := [⟨channel, k, .onReturn⟩, ⟨channel, k, .onClose⟩] }

/-- The route is down when a setup goes on: the listeners it puts on are the only ones. -/
theorem consumed_cases (h : Kept s) (hk : s.setups[k]? = some setup)
    (hstage : setup.stage = .consumed channel) :
    (setup.epoch ≠ s.connectionEpoch ∧
      s.consumed k setup channel = s.setSetup k { setup with stage := .fenced channel }) ∨
    (setup.epoch = s.connectionEpoch ∧
      s.consumed k setup channel = (s.routedBy k channel).setSetup k
        { setup with stage := .installed channel s.connectionEpoch }) := by
  have hrunning : setup.stage.settled = false := by
    rw [hstage]
    rfl
  cases h.routed with
  | up hchannel => cases (h.running hk hrunning).1.symm.trans hchannel
  | down hchannel hlisteners hattached =>
    by_cases hepoch : setup.epoch ≠ s.connectionEpoch
    · refine .inl ⟨hepoch, ?_⟩
      simp only [State.consumed, State.attachReplyListeners, if_pos hepoch,
        State.detachReplyListeners, hattached, List.nil_append, List.erase_cons_head,
        State.setSetup, hlisteners]
    · refine .inr ⟨not_not.mp hepoch, ?_⟩
      simp only [State.consumed, State.attachReplyListeners, if_neg hepoch, hattached,
        List.nil_append, State.routedBy]

theorem Kept.consumed (h : Kept s) (hk : s.setups[k]? = some setup)
    (hstage : setup.stage = .consumed channel) : Kept (s.consumed k setup channel) := by
  have hrunning : setup.stage.settled = false := by
    rw [hstage]
    rfl
  have hfull := (h.running hk hrunning).2
  rcases consumed_cases h hk hstage with ⟨-, heq⟩ | ⟨hepoch, heq⟩
  · rw [heq]
    exact h.move hk hrunning _
  · rw [heq]
    refine ⟨fun {j x} hj hopen => ?_, fun {j x} hj hopen => ?_, ?_⟩
    · rcases List.getElem?_set_cases hj with ⟨rfl, rfl⟩ | ⟨-, hj⟩
      · exact h.slot hk hopen
      · exact h.slot hj hopen
    · -- another one that runs would have the slot as well
      rcases List.getElem?_set_cases hj with ⟨rfl, rfl⟩ | ⟨hne, hj⟩
      · cases hopen
      · have hother := h.slot hj (h.running hj hopen).2
        cases (h.slot hk hfull).symm.trans hother
        exact absurd rfl hne
    · have hlt := (List.getElem?_eq_some_iff.mp hk).1
      exact .up rfl rfl rfl (List.getElem?_set_self hlt) hepoch rfl

theorem Kept.clearSlot (h : Kept s) (hk : s.setups[k]? = some setup)
    (hsettled : setup.stage.settled) (hfull : setup.cleared = false) :
    Kept (s.clearSlot k setup) := by
  have hother : ∀ {j x}, s.setups[j]? = some x → x.cleared = false → k = j := by
    intro j x hj hopen
    exact Option.some_inj.mp ((h.slot hk hfull).symm.trans (h.slot hj hopen))
  refine ⟨fun {j x} hj hopen => ?_, fun {j x} hj hopen => ?_, ?_⟩
  · rcases List.getElem?_set_cases hj with ⟨-, rfl⟩ | ⟨hne, hj⟩
    · cases hopen
    · exact absurd (hother hj hopen) hne
  · rcases List.getElem?_set_cases hj with ⟨-, rfl⟩ | ⟨hne, hj⟩
    · cases hsettled.symm.trans hopen
    · exact absurd (hother hj (h.running hj hopen).2) hne
  · cases h.routed with
    | down hchannel hlisteners hattached => exact .down hchannel hlisteners hattached
    | @up channel j x hchannel hlisteners hattached hj hepoch hstage =>
      by_cases heq : k = j
      · subst heq
        cases hk.symm.trans hj
        exact .up hchannel hlisteners hattached
          (List.getElem?_set_self (List.getElem?_eq_some_iff.mp hk).1) hepoch hstage
      · exact .up hchannel hlisteners hattached ((List.getElem?_set_ne heq).trans hj) hepoch hstage

/-! ## Runs -/

/-- A setup begins: no other one has the slot. -/
theorem Kept.begin (h : Kept s) (hnone : s.replyChannel = none)
    (hempty : s.replySetupPromise = none) (hfull : setup.cleared = false) :
    Kept { s with
      setups := s.setups ++ [setup]
      replySetupPromise := some s.setups.length } where
  slot {j x} hj hopen := by
    rcases List.getElem?_append_cases hj with hj | ⟨rfl, rfl⟩
    · cases hempty.symm.trans (h.slot hj hopen)
    · rfl
  running {j x} hj hopen := by
    rcases List.getElem?_append_cases hj with hj | ⟨rfl, rfl⟩
    · exact h.running hj hopen
    · exact ⟨hnone, hfull⟩
  routed := by
    cases h.routed with
    | down hchannel hlisteners hattached => exact .down hchannel hlisteners hattached
    | up hchannel => cases hnone.symm.trans hchannel

theorem Kept.request (h : Kept s) (hasPool : Bool) : Kept (s.request hasPool) := by
  simp only [State.request, State.ensureReplyConsumer]
  split
  · exact h.same rfl rfl rfl rfl rfl rfl
  · next hnone =>
    split
    · exact h.same rfl rfl rfl rfl rfl rfl
    · next hempty =>
      have hfull : (⟨s.connectionEpoch, if hasPool then .opening else .failed, false, false⟩ :
        Setup).cleared = false := rfl
      exact (h.begin hnone hempty hfull).same rfl rfl rfl rfl rfl rfl

theorem Steps.kept {event : Event} (hs : Steps s event s') (h : Kept s) : Kept s' := by
  cases hs with
  | request => exact h.request _
  | opened hk hstage | openFails hk hstage | answered hk hstage | refused hk hstage =>
    exact h.move hk (by rw [hstage]; rfl) _
  | resumed hk hstage => exact h.consumed hk hstage
  | cleared hk hsettled hfull => exact h.clearSlot hk hsettled hfull
  | joined hr hk hcleared => exact h.same rfl rfl rfl rfl rfl rfl
  | publishes hr =>
    unfold State.publishOnChannel
    split
    · exact h
    · exact h.same rfl rfl rfl rfl rfl rfl
  | @cancelled k setup channel hk hconsumer hopen =>
    have hset : Kept (s.setSetup k { setup with cancelled := true }) :=
      h.set hk rfl (fun hrunning => h.running hk hrunning) fun _ => ⟨rfl, rfl⟩
    exact hset.invalidate _
  | @closed channel hopen =>
    have hclosed : Kept { s with closed := channel :: s.closed } := h.same rfl rfl rfl rfl rfl rfl
    exact hclosed.invalidates _
  | connectionLost => exact h.handleConnectionLoss

theorem kept {ok : State → Event → Prop} (hr : Reach step ok start s) : Kept s :=
  hr.invariant kept_start fun h _ hs => (step_cases hs).kept h

/-- In every run one setup is in flight at most, the reply channel was set up in the current epoch,
it has one listener of each kind, and no listener is left anywhere else. -/
theorem reply_route_fresh (hr : Reach step anyStep start s) : Fresh s := by
  have h := kept hr
  refine ⟨?_, ?_, ?_, ?_⟩
  · apply List.length_filter_le_one
    intro i j x y hi hj hx hy
    have hslot := h.slot hi (h.running hi (by simpa using hx)).2
    have hslot' := h.slot hj (h.running hj (by simpa using hy)).2
    exact Option.some_inj.mp (hslot.symm.trans hslot')
  · intro channel hchannel
    cases h.routed with
    | down hnone => cases hnone.symm.trans hchannel
    | up hsome hlisteners hattached hk hepoch hstage =>
      cases hsome.symm.trans hchannel
      exact ⟨_, List.mem_of_getElem? hk, hepoch, hstage⟩
  · intro channel hchannel kind
    cases h.routed with
    | down hnone => cases hnone.symm.trans hchannel
    | up hsome hlisteners hattached =>
      cases hsome.symm.trans hchannel
      rw [hattached]
      cases kind <;> simp
  · intro hsettled l hl
    cases h.routed with
    | down hnone hlisteners hattached =>
      rw [hattached] at hl
      cases hl
    | up hsome hlisteners hattached =>
      rw [hattached] at hl
      rcases List.mem_cons.mp hl with rfl | hl
      · exact hsome
      · rw [List.mem_singleton.mp hl]
        exact hsome

/-- A setup straddles a connection loss and is fenced; the next one installs the same channel. -/
theorem reply_route_fresh_run :
    ∃ s : State, Fresh s ∧ s.replyChannel = some 7 ∧ s.connectionEpoch = 1 := by
  have hrun : (run step anyStep start [.request true, .opened 0 (some 7), .answered 0,
      .connectionLost, .request true, .resumed 0, .cleared 0, .joined 0, .request true,
      .opened 1 (some 7), .answered 1, .resumed 1]).any fun s =>
        decide (s.replyChannel = some 7 ∧ s.connectionEpoch = 1) := by decide +kernel
  obtain ⟨s, hs, h⟩ := (Option.any_eq_true _ _).mp hrun
  exact ⟨s, reply_route_fresh (reach_of_run hs), of_decide_eq_true h⟩

end ReplyRoute
end RabbitMQ
