import RabbitMQ.Messaging.Rpc.ReplyRoute.Freshness

/-! The reply channel can deliver.

`onClose` and the null message know their channel by `replyChannel`, which is assigned only after
the awaited `channel.consume`. A close or a cancel that comes between the broker's answer and that
assignment finds nothing to take down, and does not come again: the setup then installs a channel
that is lost, and only a connection loss takes it down. -/

namespace RabbitMQ
namespace ReplyRoute

open Transition

variable {s s' : State} {k : Nat} {setup : Setup} {channel : Nat} {event : Event}

/-- The channel is open and the consumer of the setup was not cancelled. -/
structure State.Carries (s : State) (k channel : Nat) : Prop where
  consumer : ∃ setup, s.setups[k]? = some setup ∧ setup.stage.consumer? = some channel ∧
    setup.cancelled = false
  unclosed : channel ∉ s.closed

theorem State.Carries.delivers (h : s.Carries k channel) : s.Delivers channel := by
  obtain ⟨setup, hk, hconsumer, hcancelled⟩ := h.consumer
  exact ⟨h.unclosed, setup, List.mem_of_getElem? hk, hconsumer, hcancelled⟩

structure Live (s : State) : Prop where
  /-- the reply channel has not closed, and its reply consumer was not cancelled -/
  route : ∀ channel, s.replyChannel = some channel →
    ∃ k, s.replyListeners = some ⟨channel, k⟩ ∧ s.Carries k channel
  /-- no request was published where its answer could not be delivered -/
  sent : s.stranded = []
  /-- a request goes to a channel that delivers, or to a setup -/
  taken : ∀ hasPool channel,
    (s.ensureReplyConsumer hasPool).2 = .holds channel → s.Delivers channel

/-- A setup that goes on within its epoch finds its channel open and its consumer there, and so
does an attempt to publish. -/
def Undisturbed (s : State) : Event → Prop
  | .resumed k => ∀ setup ∈ s.setups[k]?, setup.epoch = s.connectionEpoch →
      setup.cancelled = false ∧ ∀ channel ∈ setup.stage.consumer?, channel ∉ s.closed
  | .publishes r => ∀ request ∈ s.requests[r]?, ∀ channel ∈ request.channel?, s.Delivers channel
  | _ => True

instance (s : State) : (event : Event) → Decidable (Undisturbed s event)
  | .resumed k => inferInstanceAs (Decidable (∀ setup ∈ s.setups[k]?, _ → _ ∧ ∀ channel ∈ _, _))
  | .publishes r => inferInstanceAs (Decidable (∀ request ∈ s.requests[r]?, ∀ channel ∈ _, _))
  | .request _ | .opened .. | .answered _ | .refused _ | .cleared _ | .joined _ | .cancelled _
  | .closed _ | .connectionLost => inferInstanceAs (Decidable True)

theorem Live.of_route (hroute : ∀ channel, s.replyChannel = some channel →
      ∃ k, s.replyListeners = some ⟨channel, k⟩ ∧ s.Carries k channel)
    (hsent : s.stranded = []) : Live s := by
  refine ⟨hroute, hsent, fun hasPool channel htaken => ?_⟩
  unfold State.ensureReplyConsumer at htaken
  split at htaken
  · next hchannel =>
    cases htaken
    obtain ⟨k, -, hcarries⟩ := hroute channel hchannel
    exact hcarries.delivers
  · split at htaken <;> cases htaken

theorem live_start : Live start := .of_route nofun rfl

theorem Live.down (hnone : s.replyChannel = none) (hsent : s.stranded = []) : Live s := by
  apply Live.of_route _ hsent
  intro channel hchannel
  cases hnone.symm.trans hchannel

/-- A step that leaves the route alone, and what carries it. -/
theorem Live.same (h : Live s) (hchannel : s'.replyChannel = s.replyChannel)
    (hlisteners : s'.replyListeners = s.replyListeners) (hsent : s'.stranded = [])
    (hcarries : ∀ k channel, s.replyChannel = some channel → s.Carries k channel →
      s'.Carries k channel) : Live s' := by
  apply Live.of_route _ hsent
  intro channel hsome
  rw [hchannel] at hsome
  obtain ⟨k, hk, h⟩ := h.route channel hsome
  exact ⟨k, hlisteners.trans hk, hcarries k channel hsome h⟩

/-- A setup keeps its consumer. -/
theorem State.Carries.set {setup' : Setup} (h : s.Carries k channel) {j : Nat}
    (hj : s.setups[j]? = some setup) (hstage : setup'.stage = setup.stage)
    (hcancelled : setup'.cancelled = setup.cancelled ∨ setup.stage.consumer? ≠ some channel) :
    (s.setSetup j setup').Carries k channel := by
  obtain ⟨⟨x, hk, hconsumer, hnot⟩, hunclosed⟩ := h
  refine ⟨?_, hunclosed⟩
  by_cases heq : j = k
  · subst heq
    cases hj.symm.trans hk
    refine ⟨setup', List.getElem?_set_self (List.getElem?_eq_some_iff.mp hk).1, ?_, ?_⟩
    · exact hstage ▸ hconsumer
    · rcases hcancelled with hsame | hne
      · exact hsame.trans hnot
      · exact absurd hconsumer hne
  · exact ⟨x, (List.getElem?_set_ne heq).trans hk, hconsumer, hnot⟩

theorem Live.request (h : Live s) (hasPool : Bool) : Live (s.request hasPool) := by
  simp only [State.request, State.ensureReplyConsumer]
  split
  · exact h.same rfl rfl h.sent fun _ _ _ h => ⟨h.consumer, h.unclosed⟩
  · next hnone =>
    split
    · exact .down hnone h.sent
    · exact .down hnone h.sent

/-- A setup in flight leaves no route to keep. -/
theorem Live.move (h : Live s) (hkept : Kept s) (hk : s.setups[k]? = some setup)
    (hrunning : setup.stage.settled = false) (setup' : Setup) : Live (s.setSetup k setup') :=
  .down (hkept.running hk hrunning).1 h.sent

/-- The setup goes on as it found its channel and its consumer. -/
theorem Live.consumed (h : Live s) (hkept : Kept s) (hk : s.setups[k]? = some setup)
    (hstage : setup.stage = .consumed channel) (hok : Undisturbed s (.resumed k)) :
    Live (s.consumed k setup channel) := by
  rcases consumed_cases hkept hk hstage with ⟨-, heq⟩ | ⟨hepoch, heq⟩
  · rw [heq]
    refine h.move hkept hk ?_ _
    rw [hstage]
    rfl
  · obtain ⟨hcancelled, hunclosed⟩ := hok setup hk hepoch
    rw [heq]
    refine .of_route ?_ h.sent
    rintro c ⟨⟩
    refine ⟨k, rfl, ⟨{ setup with stage := .installed channel s.connectionEpoch }, ?_, rfl,
      hcancelled⟩, ?_⟩
    · exact List.getElem?_set_self (List.getElem?_eq_some_iff.mp hk).1
    · apply hunclosed
      rw [hstage]
      rfl

/-- The null message of another consumer takes down its own channel only. -/
theorem Live.brokerCancels (h : Live s) (hkept : Kept s) (hk : s.setups[k]? = some setup)
    (hconsumer : setup.stage.consumer? = some channel) :
    Live (s.brokerCancels k setup channel) := by
  have hset : Kept (s.setSetup k { setup with cancelled := true }) :=
    hkept.set hk rfl (fun hrunning => hkept.running hk hrunning) fun _ => ⟨rfl, rfl⟩
  rcases invalidate_cases hset.routed channel with ⟨hne, heq⟩ | ⟨-, heq⟩
  · rw [State.brokerCancels, heq]
    refine h.same rfl rfl h.sent fun j c hc hcarries => ?_
    refine hcarries.set hk rfl (.inr ?_)
    rw [hconsumer]
    intro heq
    exact hne (hc.trans heq.symm)
  · rw [State.brokerCancels, heq]
    exact .down rfl h.sent

/-- The reply channel has its `onClose` on. -/
theorem emitClose_cases (hkept : Kept s) (channel : Nat) :
    (s.replyChannel ≠ some channel ∧
      s.emitClose channel = { s with closed := channel :: s.closed }) ∨
    (s.replyChannel = some channel ∧
      s.emitClose channel = State.unrouted { s with closed := channel :: s.closed }) := by
  cases hkept.routed with
  | down hchannel hlisteners hattached =>
    refine .inl ⟨by simp [hchannel], ?_⟩
    simp [State.emitClose, hattached]
  | @up c k setup hchannel hlisteners hattached =>
    by_cases hc : c = channel
    · subst hc
      refine .inr ⟨hchannel, ?_⟩
      simp [State.emitClose, hattached, State.invalidateReplyChannel, hchannel,
        State.detachReplyListeners, hlisteners, State.unrouted]
    · refine .inl ⟨by simpa [hchannel] using hc, ?_⟩
      simp [State.emitClose, hattached, hc]

theorem Live.emitClose (h : Live s) (hkept : Kept s) (channel : Nat) :
    Live (s.emitClose channel) := by
  rcases emitClose_cases hkept channel with ⟨hne, heq⟩ | ⟨-, heq⟩
  · rw [heq]
    refine h.same rfl rfl h.sent fun k c hc hcarries => ⟨hcarries.consumer, ?_⟩
    intro hmem
    rcases List.mem_cons.mp hmem with rfl | hmem
    · exact hne hc
    · exact hcarries.unclosed hmem
  · rw [heq]
    exact .down rfl h.sent

theorem Steps.live (hs : Steps s event s') (hkept : Kept s) (hok : Undisturbed s event)
    (h : Live s) : Live s' := by
  cases hs with
  | request => exact h.request _
  | opened hk hstage | openFails hk hstage | answered hk hstage | refused hk hstage =>
    exact h.move hkept hk (by rw [hstage]; rfl) _
  | resumed hk hstage => exact h.consumed hkept hk hstage hok
  | @cleared k setup hk hsettled hfull =>
    refine h.same rfl rfl h.sent fun j c _ hcarries => ⟨?_, hcarries.unclosed⟩
    have hset : (s.setSetup k { setup with cleared := true }).Carries j c :=
      hcarries.set hk rfl (.inl rfl)
    exact hset.consumer
  | joined hr hk hcleared => exact h.same rfl rfl h.sent fun _ _ _ h => ⟨h.consumer, h.unclosed⟩
  | publishes hr =>
    rw [State.publishOnChannel, if_pos (hok _ hr _ rfl)]
    exact h
  | cancelled hk hconsumer hopen => exact h.brokerCancels hkept hk hconsumer
  | closed hopen => exact h.emitClose hkept _
  | connectionLost =>
    rw [handleConnectionLoss_eq hkept.routed]
    exact .down rfl h.sent

/-- A step that breaks the condition installs a lost channel, or publishes on one. -/
theorem Steps.undisturbed (hs : Steps s event s') (hkept : Kept s) (h : Live s') :
    Undisturbed s event := by
  cases hs with
  | @resumed k setup channel hk hstage =>
    intro x hx hepoch
    cases hk.symm.trans hx
    rcases consumed_cases hkept hk hstage with ⟨hne, -⟩ | ⟨-, heq⟩
    · exact absurd hepoch hne
    · rw [heq] at h
      obtain ⟨j, hj, ⟨x, hx, -, hcancelled⟩, hunclosed⟩ := h.route channel rfl
      cases hj
      obtain ⟨-, rfl⟩ := (List.getElem?_set_cases hx).resolve_right fun h => h.1 rfl
      refine ⟨hcancelled, fun c hc => ?_⟩
      rw [hstage] at hc
      cases hc
      exact hunclosed
  | @publishes r channel hr =>
    intro request hrequest c hc
    cases hr.symm.trans hrequest
    cases hc
    by_contra hlost
    have hsent := h.sent
    rw [State.publishOnChannel, if_neg hlost] at hsent
    cases hsent
  | _ => trivial

/-- In a run whose setups go on undisturbed, the reply channel delivers in every state; and a step
that is the first not to meet the condition ends with a reply channel that is lost, or publishes a
request on one. -/
theorem reply_route_live (hr : Reach step Undisturbed start s) :
    Live s ∧ ∀ event s', step s event = some s' → (Live s' ↔ Undisturbed s event) := by
  have hkept : Kept s := kept hr
  have hlive : Live s := by
    refine hr.invariant_of (fun hr => kept hr) live_start fun hkept _ h hok hs => ?_
    exact (step_cases hs).live hkept hok h
  refine ⟨hlive, fun event s' hs => ⟨fun h => ?_, fun hok => ?_⟩⟩
  · exact (step_cases hs).undisturbed hkept h
  · exact (step_cases hs).live hkept hok hlive

/-- A cancel of the installed consumer takes the route down, and the next request builds another. -/
theorem reply_route_live_run : ∃ s : State, Live s ∧ s.replyChannel = some 7 ∧ s.setups.length = 2 := by
  have hrun : (run step Undisturbed start [.request true, .opened 0 (some 7), .answered 0,
      .resumed 0, .cleared 0, .joined 0, .publishes 0, .cancelled 0, .request true,
      .opened 1 (some 7), .answered 1, .resumed 1]).any fun s =>
        decide (s.replyChannel = some 7 ∧ s.setups.length = 2) := by decide +kernel
  obtain ⟨s, hs, h⟩ := (Option.any_eq_true _ _).mp hrun
  exact ⟨s, (reply_route_live (reach_of_run hs)).1, of_decide_eq_true h⟩

/-- The broker answers, and the channel closes before the setup goes on. -/
theorem reply_route_lost : ∃ s : State, Reach step anyStep start s ∧ ¬ Live s := by
  have hrun : (run step anyStep start [.request true, .opened 0 (some 7), .answered 0, .closed 7,
      .resumed 0]).any fun s => decide (s.replyChannel = some 7 ∧ 7 ∈ s.closed) := by
    decide +kernel
  obtain ⟨s, hs, h⟩ := (Option.any_eq_true _ _).mp hrun
  obtain ⟨hchannel, hclosed⟩ := of_decide_eq_true h
  refine ⟨s, reach_of_run hs, fun hlive => ?_⟩
  obtain ⟨k, -, hcarries⟩ := hlive.route 7 hchannel
  exact hcarries.unclosed hclosed

/-! ## How long a lost channel stays -/

/-- Nothing comes from a closed channel that would take it down. -/
theorem Steps.dead_stays (hs : Steps s event s') (hkept : Kept s) (hloss : event ≠ .connectionLost)
    (hdead : s.replyChannel = some channel ∧ channel ∈ s.closed) :
    s'.replyChannel = some channel ∧ channel ∈ s'.closed := by
  obtain ⟨hchannel, hclosed⟩ := hdead
  have hrunning : ∀ {k : Nat} {setup : Setup}, s.setups[k]? = some setup →
      setup.stage.settled = true := by
    intro k setup hk
    by_contra hopen
    have hnone := (hkept.running hk (Bool.eq_false_iff.mpr hopen)).1
    cases hnone.symm.trans hchannel
  cases hs with
  | request => simp [State.request, State.ensureReplyConsumer, hchannel, hclosed]
  | opened hk hstage | openFails hk hstage | answered hk hstage | refused hk hstage
  | resumed hk hstage =>
    have hsettled := hrunning hk
    rw [hstage] at hsettled
    cases hsettled
  | cleared | joined => exact ⟨hchannel, hclosed⟩
  | publishes hr =>
    unfold State.publishOnChannel
    split <;> exact ⟨hchannel, hclosed⟩
  | @cancelled k setup c hk hconsumer hopen =>
    have hne : c ≠ channel := fun heq => hopen (heq ▸ hclosed)
    have hkeeps : (s.setSetup k { setup with cancelled := true }).replyChannel ≠ some c := by
      intro heq
      exact hne (Option.some_inj.mp (heq.symm.trans hchannel))
    rw [State.brokerCancels, State.invalidateReplyChannel, if_pos hkeeps]
    exact ⟨hchannel, hclosed⟩
  | @closed c hopen =>
    rcases emitClose_cases hkept c with ⟨-, heq⟩ | ⟨heq, -⟩
    · rw [heq]
      exact ⟨hchannel, List.mem_cons_of_mem _ hclosed⟩
    · cases hchannel.symm.trans heq
      exact absurd hclosed hopen
  | connectionLost => exact absurd rfl hloss

/-- Once a closed channel is installed, every request takes it until the connection is lost. -/
theorem dead_until_connection_lost (hr : Reach step anyStep start s)
    (hdead : s.replyChannel = some channel ∧ channel ∈ s.closed)
    (hlater : Reach step (fun _ event => event ≠ .connectionLost) s s') (hasPool : Bool) :
    (s'.ensureReplyConsumer hasPool).2 = .holds channel ∧ ¬ s'.Delivers channel := by
  have hstays : s'.replyChannel = some channel ∧ channel ∈ s'.closed := by
    apply hlater.invariant_of (J := fun s => s.replyChannel = some channel ∧ channel ∈ s.closed)
      (fun h => kept (hr.trans h.toAny)) hdead
    intro s₁ s₂ event hkept _ hdead hloss hs
    exact (step_cases hs).dead_stays hkept hloss hdead
  refine ⟨?_, fun hdelivers => hdelivers.1 hstays.2⟩
  rw [State.ensureReplyConsumer, hstays.1]

end ReplyRoute
end RabbitMQ
