import RabbitMQ.Consumers.ConsumerManager.OpenChannels
import RabbitMQ.Consumers.ConsumerManager.Epochs

/-! Where the deliveries of a consumer come from: its consumes on open channels, and the setups that
may still get as far as a consume. A setup that begins is a source, and its consume takes its place. -/

namespace RabbitMQ
namespace ConsumerManager

open Transition State

variable {s t : State} {event : Event} {consumer channel pool k : Nat}

/-- The connection of the pool is up. -/
def State.connected (s : State) (pool : Nat) : Bool := s.pools[pool]?.any (·.connected)

/-- The setup may still consume. -/
def SetupStage.viable (s : State) : SetupStage → Bool
  | .opening pool => s.connected pool
  | .opened channel | .prefetching channel | .consuming channel => s.live channel
  | _ => false

/-- The setup has yet to consume. -/
def SetupStage.asking : SetupStage → Bool
  | .consumed _ _ | .cancelling _ _ | .settled _ => false
  | _ => true

theorem SetupStage.asking_of_viable {stage : SetupStage} (h : stage.viable s) : stage.asking := by
  cases stage with
  | consumed | cancelling | settled => cases h
  | _ => rfl

theorem StageMove.asking_before {setup : Setup} {stage : SetupStage} (h : StageMove s t setup stage)
    (hasking : stage.asking) : setup.stage.asking := by
  cases h with
  | opened hstage | releasing hstage | prefetching hstage | skipsPrefetch hstage
  | consuming hstage =>
    rw [hstage]
    rfl
  | consumed | cancelling | completes | fails => cases hasking

inductive Source where
  | setup (k : Nat)
  | consume (i : Nat)
  deriving DecidableEq

inductive Feeds (s : State) (consumer : Nat) : Source → Prop
  | setup {k : Nat} {setup : Setup} (hk : s.setups[k]? = some setup)
      (hconsumer : setup.consumer = consumer) (hviable : setup.stage.viable s) :
      Feeds s consumer (.setup k)
  | consume {i : Nat} {c : Consume} (hi : s.consumes[i]? = some c)
      (hconsumer : c.consumer = consumer) (hactive : c.active) (hlive : s.live c.channel) :
      Feeds s consumer (.consume i)

/-- What a step makes a source of. -/
inductive FeedCases (s t : State) (event : Event) (consumer : Nat) : Source → Prop
  | kept {source : Source} (h : Feeds s consumer source) : FeedCases s t event consumer source
  | begins {setup : Setup} (hbegins : Begins s event setup) (hconsumer : setup.consumer = consumer) :
      FeedCases s t event consumer (.setup s.setups.length)
  | consumes {k consumerTag : Nat} (hevent : event = .consumeOk k consumerTag)
      (h : Feeds s consumer (.setup k))
      (hconsumed : ∀ {setup : Setup}, t.setups[k]? = some setup → setup.stage.asking = false) :
      FeedCases s t event consumer (.consume s.consumes.length)

theorem Steps.connected_before (h : Steps s event t) (hlt : pool < s.pools.length)
    (hconnected : t.connected pool) : s.connected pool := by
  cases h with
  | poolInstalled =>
    rw [connected, List.getElem?_append_left hlt] at hconnected
    exact hconnected
  | restoreFails =>
    obtain ⟨p', hp', hup⟩ := (Option.any_eq_true _ _).mp hconnected
    obtain ⟨p, hp, rfl⟩ := List.getElem?_modify_cases hp'
    refine (Option.any_eq_true _ _).mpr ⟨p, hp, ?_⟩
    split at hup <;> exact hup
  | connectionLost =>
    obtain ⟨p', hp', hup⟩ := (Option.any_eq_true _ _).mp hconnected
    rw [State.connectionLost, List.getElem?_map, Option.map_eq_some_iff] at hp'
    obtain ⟨p, -, rfl⟩ := hp'
    cases hup
  | disconnect =>
    unfold State.disconnect at hconnected
    dsimp only at hconnected
    split at hconnected
    · exact hconnected
    · obtain ⟨p', hp', hup⟩ := (Option.any_eq_true _ _).mp hconnected
      obtain ⟨p, hp, rfl⟩ := List.getElem?_modify_cases hp'
      refine (Option.any_eq_true _ _).mpr ⟨p, hp, ?_⟩
      split at hup <;> exact hup
  | _ =>
    simpa [connected, setLoop, setDrop, setSetup, modifyConsumer, State.channelOpened,
      State.consumeOk, tryAgain] using hconnected

/-- A stage that may still consume was one before, at the same setup. -/
theorem StageMove.viable_before {setup : Setup} {stage : SetupStage} (h : StageMove s t setup stage)
    (hsteps : Steps s event t) (howned : Owned s) (hk : s.setups[k]? = some setup)
    (hviable : stage.viable t) : setup.stage.viable s := by
  have hlive : ∀ {channel : Nat}, setup.stage.channel? = some channel → t.live channel →
      s.live channel := by
    intro channel hchannel hlive
    obtain ⟨c, hc, -⟩ := howned.setups hk hchannel
    exact hsteps.live_before hc hlive
  cases h with
  | opened hstage hconnected =>
    rw [hstage]
    exact hconnected
  | prefetching hstage | skipsPrefetch hstage | consuming hstage =>
    rw [hstage] at hlive ⊢
    exact hlive rfl hviable
  | releasing | consumed | cancelling | completes | fails => cases hviable

theorem viable_before (hsteps : Steps s event t) (hreg : Registered s) (howned : Owned s)
    {setup : Setup} (hk : s.setups[k]? = some setup) (hviable : setup.stage.viable t) :
    setup.stage.viable s := by
  have hlive : ∀ {channel : Nat}, setup.stage.channel? = some channel → t.live channel →
      s.live channel := by
    intro channel hchannel hlive
    obtain ⟨c, hc, -⟩ := howned.setups hk hchannel
    exact hsteps.live_before hc hlive
  cases hstage : setup.stage with
  | opening pool =>
    rw [hstage] at hviable
    exact hsteps.connected_before (hreg.setupPools hk (howned.opening hk hstage)) hviable
  | opened | prefetching | consuming =>
    rw [hstage] at hlive hviable
    exact hlive rfl hviable
  | _ =>
    rw [hstage] at hviable
    cases hviable

theorem Steps.feeds (h : Steps s event t) (hreg : Registered s) (howned : Owned s) {source : Source}
    (hfeeds : Feeds t consumer source) : FeedCases s t event consumer source := by
  cases hfeeds with
  | @setup k setup' hk hconsumer hviable =>
    cases h.setups hk with
    | same hk₀ => exact .kept (.setup hk₀ hconsumer (viable_before h hreg howned hk₀ hviable))
    | @moves setup stage hk₀ hmove heq =>
      rw [heq] at hconsumer hviable
      exact .kept (.setup hk₀ hconsumer (hmove.viable_before h howned hk₀ hviable))
    | begins hlength hbegins =>
      rw [hlength]
      exact .begins hbegins hconsumer
  | @consume i c' hi hconsumer hactive hlive =>
    have hkept : ∀ {c : Consume}, s.consumes[i]? = some c → c'.consumer = c.consumer →
        c'.channel = c.channel → (c'.active → c.active) →
        FeedCases s t event consumer (.consume i) := by
      intro c hi₀ heq hchannel hbefore
      obtain ⟨ch, hch, -⟩ := howned.consumes hi₀
      rw [hchannel] at hlive
      exact .kept (.consume hi₀ (heq.symm.trans hconsumer) (hbefore hactive)
        (h.live_before hch hlive))
    by_cases hnew : ∀ k consumerTag, event ≠ .consumeOk k consumerTag
    · obtain ⟨c, hi₀, heq, hchannel, hbefore⟩ := h.consume_kept hnew hi
      exact hkept hi₀ heq hchannel hbefore
    · simp only [not_forall, not_not] at hnew
      obtain ⟨k, consumerTag, rfl⟩ := hnew
      cases h with
      | consumeOk hk hstage hlive₀ =>
        rcases List.getElem?_append_cases hi with hi₀ | ⟨rfl, rfl⟩
        · exact hkept hi₀ rfl rfl id
        · refine .consumes rfl (.setup hk hconsumer (by rw [hstage]; exact hlive₀)) fun hk' => ?_
          obtain ⟨a, -, rfl⟩ := List.getElem?_modify_cases hk'
          rw [if_pos rfl]
          rfl

end ConsumerManager
end RabbitMQ
