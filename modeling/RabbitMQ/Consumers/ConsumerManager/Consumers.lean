import RabbitMQ.Consumers.ConsumerManager.Unsubscribing

/-! What a step can do to a consumer: only a setup that completes writes its channel and its tag, and
only its deliveries are counted. -/

namespace RabbitMQ
namespace ConsumerManager

open Transition State

variable {s t : State} {event : Event} {consumer consumerTag : Nat}

/-! ## What the setups track -/

/-- A tag that a consumer obtained, with the channel it consumes on. -/
structure Tracked where
  consumer : Nat
  channel : Nat
  consumerTag : Nat
  deriving DecidableEq

/-- What a step tracks: a setup that completes for a consumer that is registered and not
cancelled. -/
def tracks (s : State) : Event → List Tracked
  | .setupCompletes k =>
    match s.setups[k]? with
    | some ⟨consumer, _, _, .consumed channel consumerTag⟩ =>
      if consumer ∉ s.activeConsumers ∨ s.cancelled consumer then []
      else [⟨consumer, channel, consumerTag⟩]
    | _ => []
  | _ => []

theorem tracks_of_consumed {k channel : Nat} {setup : Setup} (hk : s.setups[k]? = some setup)
    (hstage : setup.stage = .consumed channel consumerTag)
    (hours : ¬ (setup.consumer ∉ s.activeConsumers ∨ s.cancelled setup.consumer)) :
    tracks s (.setupCompletes k) = [⟨setup.consumer, channel, consumerTag⟩] := by
  obtain ⟨consumer, caller, pool, stage⟩ := setup
  cases hstage
  simp only [tracks, hk]
  exact if_neg hours

theorem tracks_of_cancelled {k channel : Nat} {setup : Setup} (hk : s.setups[k]? = some setup)
    (hstage : setup.stage = .consumed channel consumerTag)
    (hgone : setup.consumer ∉ s.activeConsumers ∨ s.cancelled setup.consumer) :
    tracks s (.setupCompletes k) = [] := by
  obtain ⟨consumer, caller, pool, stage⟩ := setup
  cases hstage
  simp only [tracks, hk]
  exact if_pos hgone

theorem tracks_mem {e : Tracked} (he : e ∈ tracks s event) :
    ∃ k setup, event = .setupCompletes k ∧ s.setups[k]? = some setup ∧
      setup.stage = .consumed e.channel e.consumerTag ∧ setup.consumer = e.consumer ∧
      e.consumer ∈ s.activeConsumers ∧ ¬ s.cancelled e.consumer := by
  unfold tracks at he
  split at he
  · next k =>
    split at he
    · next hk =>
      split at he
      · cases he
      · next hours =>
        cases List.mem_singleton.mp he
        rw [not_or, not_not] at hours
        exact ⟨k, _, rfl, hk, rfl, rfl, hours⟩
    · cases he
  · cases he

/-! ## Consumers -/

/-- The fields of a consumer that a step mostly leaves as they are. -/
structure Consumer.Keeps (c c' : Consumer) : Prop where
  channel : c'.channel = c.channel
  consumerTag : c'.consumerTag = c.consumerTag
  noAck : c'.noAck = c.noAck
  inFlight : c'.inFlight = c.inFlight

theorem Consumer.Keeps.refl (c : Consumer) : c.Keeps c := ⟨rfl, rfl, rfl, rfl⟩

/-- Deliveries are counted. -/
def Event.counts : Event → Bool
  | .delivered _ | .handled _ => true
  | _ => false

/-- What a step can do to a consumer. -/
inductive ConsumerCases (s : State) (event : Event) (consumer : Nat) (c' : Consumer) : Prop
  | kept {c : Consumer} (hc : s.consumers[consumer]? = some c) (hkeeps : c.Keeps c')
      (hnone : ∀ e ∈ tracks s event, e.consumer ≠ consumer)
  | tracked {c : Consumer} {e : Tracked} (hc : s.consumers[consumer]? = some c)
      (htracks : tracks s event = [e]) (hconsumer : e.consumer = consumer)
      (hkeeps : { c with channel := some e.channel, consumerTag := some e.consumerTag }.Keeps c')
  | counted {c : Consumer} (hc : s.consumers[consumer]? = some c) (hcounts : event.counts)
      (hchannel : c'.channel = c.channel) (htag : c'.consumerTag = c.consumerTag)
      (hnoAck : c'.noAck = c.noAck) (htracks : tracks s event = [])
  | begins {noAck} (hnew : consumer = s.consumers.length) (htracks : tracks s event = [])
      (hkeeps : (Consumer.mk none none none false 0 0 noAck false).Keeps c')

theorem tracks_of_not_completes (h : ∀ k, event ≠ .setupCompletes k) : tracks s event = [] := by
  unfold tracks
  split
  · exact absurd rfl (h _)
  · rfl

/-- Only a setup that completes tracks anything. -/
theorem ConsumerCases.same {c c' : Consumer} (hevent : ∀ k, event ≠ .setupCompletes k)
    (hc : s.consumers[consumer]? = some c) (hkeeps : c.Keeps c') :
    ConsumerCases s event consumer c' := by
  refine .kept hc hkeeps fun e he => ?_
  rw [tracks_of_not_completes hevent] at he
  cases he

theorem Steps.consumer_cases (h : Steps s event t) {c' : Consumer}
    (hc : t.consumers[consumer]? = some c') : ConsumerCases s event consumer c' := by
  cases h.consumers hc with
  | same hc₀ hnone =>
    refine .kept hc₀ (.refl c') fun e he hconsumer => ?_
    obtain ⟨k, setup, hevent, hk, hstage, hsetup, hactive, hcancelled⟩ := tracks_mem he
    rw [hconsumer] at hsetup hactive hcancelled
    rcases hnone hevent hk hstage hsetup with hgone | hgone
    · exact hgone hactive
    · exact hcancelled hgone
  | @registers noAck hevent hnew heq =>
    have hkeeps : (Consumer.mk none none none false 0 0 noAck false).Keeps c' := by
      rw [heq]
      exact ⟨rfl, rfl, rfl, rfl⟩
    exact .begins hnew (tracks_of_not_completes (by simp [hevent])) hkeeps
  | @begins c setup hc₀ hbegins _ heq =>
    exact .same hbegins.not_completes hc₀ (by rw [heq]; exact ⟨rfl, rfl, rfl, rfl⟩)
  | @cancels c hc₀ hevent heq =>
    refine .same (fun k hcompletes => ?_) hc₀ (by rw [heq]; exact ⟨rfl, rfl, rfl, rfl⟩)
    rcases hevent with hevent | ⟨_, hevent⟩ <;> cases hevent.symm.trans hcompletes
  | @tracks c k setup channel consumerTag hc₀ hevent hk hstage hconsumer hactive hcancelled heq =>
    have hours : ¬ (setup.consumer ∉ s.activeConsumers ∨ s.cancelled setup.consumer) := by
      rw [hconsumer, not_or, not_not]
      exact ⟨hactive, hcancelled⟩
    rw [heq, hevent]
    exact .tracked hc₀ (tracks_of_consumed hk hstage hours) hconsumer ⟨rfl, rfl, rfl, rfl⟩
  | @counts c n hc₀ hevent heq =>
    have hcounts : event.counts := by
      rcases hevent with ⟨_, rfl⟩ | ⟨_, rfl⟩ <;> rfl
    have htracks : ConsumerManager.tracks s event = [] := by
      rcases hevent with ⟨_, rfl⟩ | ⟨_, rfl⟩ <;> rfl
    rw [heq]
    exact .counted hc₀ hcounts rfl rfl rfl htracks

end ConsumerManager
end RabbitMQ
