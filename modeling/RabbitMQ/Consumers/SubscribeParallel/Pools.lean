import RabbitMQ.Consumers.SubscribeParallel
import RabbitMQ.Lib.Update

/-! A worker pool has an owner until it is terminated: the call that created it, and then a
registered consumer. -/

namespace RabbitMQ

/-! ## Registered consumers -/

namespace ConsumerManager

open State

variable {s t : State} {event : Event}

/-- A consumer stays registered unless it is dropped, or every consumer is. -/
theorem Steps.active_kept (h : Steps s event t) {consumer : Nat}
    (hactive : consumer ∈ s.activeConsumers) (hdisconnect : event ≠ .disconnect)
    (hdrop : ∀ (d : Nat) (workers : Bool) (drop : Drop), event = .removeConsumer d workers →
      s.drops[d]? = some drop → drop.consumer ≠ consumer) : consumer ∈ t.activeConsumers := by
  cases h with
  | subscribe =>
    simp only [runSetup_frame]
    exact List.mem_append_left _ hactive
  | @removeConsumer d drop workers hd =>
    rw [(removeConsumer_registry s d drop workers).1]
    exact (List.mem_erase_of_ne (hdrop d workers drop rfl hd).symm).mpr hactive
  | disconnect => exact absurd rfl hdisconnect
  | _ =>
    simpa [setLoop, setDrop, setSetup, modifyConsumer, State.channelOpened, State.consumeOk,
      tryAgain, closePool, State.connectionLost] using hactive

end ConsumerManager

namespace SubscribeParallel

open Transition State

variable {s t : State} {event : Event}

/-! ## Owners -/

/-- The call has yet to register its pool or to terminate it. -/
def Stage.owns : Stage → Bool
  | .subscribing _ | .subscribed _ | .rejected => true
  | .terminating | .settled => false

/-- The pool is registered under a consumer that is registered itself. -/
def State.Registered (s : State) (workerPool : Nat) : Prop :=
  ∃ consumer ∈ s.manager.activeConsumers, s.workerPools.get? consumer = some workerPool

def Owned (s : State) : Prop :=
  ∀ (n : Nat) (call : Call), s.calls[n]? = some call → call.terminated = false →
    call.stage.owns = false → s.Registered n

/-- What a step leaves of a call that goes on, or that is as it was. -/
structure Call.Keeps (call call' : Call) : Prop where
  terminated : call'.terminated = false → call.terminated = false
  owns : call'.stage.owns = false → call'.terminated = false → call.stage.owns = false

theorem Call.Keeps.refl (call : Call) : call.Keeps call := ⟨id, fun h _ => h⟩

/-- The calls that are there after a step were there before it, or are new. -/
def Kept (s t : State) : Prop :=
  ∀ (n : Nat) (call' : Call), t.calls[n]? = some call' →
    call'.stage.owns ∨ ∃ call, s.calls[n]? = some call ∧ call.Keeps call'

theorem kept_of_calls (h : t.calls = s.calls) : Kept s t := by
  intro n call' hn
  exact .inr ⟨call', h ▸ hn, .refl _⟩

theorem terminate_kept (n : Nat) : Kept s (s.terminate n) := by
  intro m call' hm
  obtain ⟨call, hcall, rfl⟩ := List.getElem?_modify_cases hm
  refine .inr ⟨call, hcall, ?_⟩
  split
  · exact ⟨nofun, fun h _ => h⟩
  · exact .refl _

theorem answer_kept (consumer : Nat) {stage : Stage} (hstage : stage.owns) :
    Kept s (s.answer consumer stage) := by
  intro m call' hm
  rw [answer, List.getElem?_map] at hm
  obtain ⟨call, hcall, rfl⟩ := Option.map_eq_some_iff.mp hm
  split
  · exact .inl hstage
  · exact .inr ⟨call, hcall, .refl _⟩

theorem disposeAll_kept : Kept s s.disposeAll := by
  intro m call' hm
  rw [disposeAll, List.getElem?_mapIdx] at hm
  obtain ⟨call, hcall, rfl⟩ := Option.map_eq_some_iff.mp hm
  refine .inr ⟨call, hcall, ?_⟩
  split
  · exact ⟨nofun, fun h _ => h⟩
  · exact .refl _

theorem append_kept {call : Call} (hcall : call.stage.owns) (h : t.calls = s.calls ++ [call]) :
    Kept s t := by
  intro n call' hn
  rw [h] at hn
  rcases List.getElem?_append_cases hn with hn | ⟨_, rfl⟩
  · exact .inr ⟨call', hn, .refl _⟩
  · exact .inl hcall

/-- The pool that a call terminates has no need of an owner. -/
theorem fails_kept (n : Nat) : Kept s ((s.terminate n).setStage n .terminating) := by
  intro m call' hm
  obtain ⟨call₁, hcall₁, rfl⟩ := List.getElem?_modify_cases hm
  obtain ⟨call, hcall, rfl⟩ := List.getElem?_modify_cases hcall₁
  refine .inr ⟨call, hcall, ?_⟩
  split
  · exact ⟨nofun, fun _ h => nomatch h⟩
  · exact .refl _

theorem settle_kept {n : Nat} {terminated : Bool}
    (hn : s.calls[n]? = some ⟨.terminating, terminated⟩) : Kept s (s.setStage n .settled) := by
  intro m call' hm
  obtain ⟨call, hcall, rfl⟩ := List.getElem?_modify_cases hm
  refine .inr ⟨call, hcall, ?_⟩
  split
  · next heq =>
    subst heq
    cases hn.symm.trans hcall
    exact ⟨id, fun _ _ => rfl⟩
  · exact .refl _

theorem Owned.of_kept (h : Owned s) (hkept : Kept s t)
    (hregistered : ∀ {n : Nat} {call : Call}, t.calls[n]? = some call → call.terminated = false →
      s.Registered n → t.Registered n) : Owned t := by
  intro n call' hn hterminated howns
  rcases hkept n call' hn with howns' | ⟨call, hcall, hcall'⟩
  · rw [howns] at howns'
    cases howns'
  · have hbefore := h n _ hcall (hcall'.terminated hterminated) (hcall'.owns howns hterminated)
    exact hregistered hn hterminated hbefore

/-! ## Steps -/

/-- The tag of the subscription that the call is about to look up. -/
def Stage.consumerTag? : Stage → Option Nat
  | .subscribed consumerTag => some consumerTag
  | _ => none

/-- A pool that registers finds a consumer without a pool under its tag, and `disposeAll` forgets
only pools that were terminated. -/
def Undisturbed (s : State) : Event → Prop
  | .registers n => ∀ call ∈ s.calls[n]?, ∀ consumerTag ∈ call.stage.consumerTag?,
    ∃ consumer ∈ s.manager.consumersByTag.get? consumerTag, s.workerPools.get? consumer = none
  | .disposed => ∀ entry ∈ s.workerPools.entries, s.terminated entry.2
  | _ => True

instance : Decidable (Undisturbed s event) := by
  unfold Undisturbed
  split
  · infer_instance
  · infer_instance
  · infer_instance

theorem managed_kept {e : ConsumerManager.Event} {manager : ConsumerManager.State}
    (hdrop : ∀ d workers, e ≠ .removeConsumer d workers) :
    Kept s (s.managed e manager) ∧ (s.managed e manager).workerPools = s.workerPools ∧
      (s.managed e manager).manager = manager := by
  cases e with
  | removeConsumer d workers => exact absurd rfl (hdrop d workers)
  | setupCompletes k =>
    simp only [managed]
    split
    · split
      · exact ⟨kept_of_calls rfl, rfl, rfl⟩
      · exact ⟨answer_kept _ rfl, rfl, rfl⟩
    · exact ⟨kept_of_calls rfl, rfl, rfl⟩
  | dropped d =>
    simp only [managed]
    split
    · exact ⟨answer_kept _ rfl, rfl, rfl⟩
    · exact ⟨kept_of_calls rfl, rfl, rfl⟩
  | _ => exact ⟨kept_of_calls rfl, rfl, rfl⟩

/-- A consumer that is dropped takes its own pool with it. -/
theorem dropWorkerPool_kept (consumer : Nat) :
    Kept s (s.dropWorkerPool consumer) ∧
      (s.dropWorkerPool consumer).manager = s.manager ∧
      ∀ {n owner : Nat} {call : Call}, (s.dropWorkerPool consumer).calls[n]? = some call →
        call.terminated = false → s.workerPools.get? owner = some n →
        owner ≠ consumer ∧ (s.dropWorkerPool consumer).workerPools.get? owner = some n := by
  unfold dropWorkerPool
  split
  · next m hm =>
    refine ⟨terminate_kept m, rfl, ?_⟩
    intro n owner call hn hterminated howner
    obtain ⟨call₀, _, rfl⟩ := List.getElem?_modify_cases hn
    have hne : owner ≠ consumer := by
      rintro rfl
      cases hm.symm.trans howner
      rw [if_pos rfl] at hterminated
      cases hterminated
    refine ⟨hne, ?_⟩
    rw [OrderedMap.get?_erase, if_neg hne]
    exact howner
  · next hm =>
    refine ⟨kept_of_calls rfl, rfl, ?_⟩
    intro n owner call _ _ howner
    refine ⟨?_, howner⟩
    rintro rfl
    cases hm.symm.trans howner

/-- The drop of a consumer. -/
theorem Owned.step_drop (h : Owned s) {d : Nat} {drop : ConsumerManager.Drop} {workers : Bool}
    (hd : s.manager.drops[d]? = some drop) (hstage : drop.stage = .drained) :
    Owned (s.managed (.removeConsumer d workers) (s.manager.removeConsumer d drop workers)) := by
  obtain ⟨hkept, hmanager, hothers⟩ := dropWorkerPool_kept (s := s) drop.consumer
  simp only [managed, hd]
  refine h.of_kept (t := { s.dropWorkerPool drop.consumer with
    manager := s.manager.removeConsumer d drop workers }) hkept ?_
  rintro n call hn hterminated ⟨owner, hactive, howner⟩
  obtain ⟨hne, howner'⟩ := hothers hn hterminated howner
  refine ⟨owner, ?_, howner'⟩
  refine (ConsumerManager.Steps.removeConsumer hd hstage).active_kept hactive nofun ?_
  intro d' workers' drop' heq hd'
  cases heq
  cases hd.symm.trans hd'
  exact hne.symm

theorem Owned.step_manager (h : Owned s) {e : ConsumerManager.Event}
    {manager : ConsumerManager.State} (hdue : s.due e)
    (hs : ConsumerManager.Steps s.manager e manager)
    (hdrop : ∀ d workers, e ≠ .removeConsumer d workers) : Owned (s.managed e manager) := by
  obtain ⟨hkept, hpools, hmanager⟩ : Kept s (s.managed e manager) ∧ _ ∧ _ := managed_kept hdrop
  refine h.of_kept hkept ?_
  rintro n call _ _ ⟨owner, hactive, howner⟩
  refine ⟨owner, ?_, hpools ▸ howner⟩
  rw [hmanager]
  refine hs.active_kept hactive ?_ fun d workers _ heq => absurd heq (hdrop d workers)
  rintro rfl
  cases hdue

/-- Under the condition a pool that registers takes no other pool's place. -/
theorem Owned.step_registers (h : Owned s) (htags : ConsumerManager.TagsRegistered s.manager)
    {n consumerTag : Nat} {terminated : Bool}
    (hn : s.calls[n]? = some ⟨.subscribed consumerTag, terminated⟩)
    (hok : Undisturbed s (.registers n)) : Owned (s.register n consumerTag) := by
  obtain ⟨consumer, htag, hfree⟩ := hok _ hn consumerTag rfl
  have hactive := htags consumerTag consumer htag
  rw [register, htag]
  intro m call' hm hterminated howns
  obtain ⟨call, hcall, rfl⟩ := List.getElem?_modify_cases hm
  split at hterminated
  · next heq =>
    subst heq
    exact ⟨consumer, hactive, OrderedMap.get?_set_self ..⟩
  · next hne =>
    rw [if_neg hne] at howns
    obtain ⟨owner, howner, hget⟩ := h m call hcall hterminated howns
    refine ⟨owner, howner, ?_⟩
    change (s.workerPools.set consumer n).get? owner = some m
    rw [OrderedMap.get?_set, if_neg, hget]
    rintro rfl
    cases hfree.symm.trans hget

theorem Owned.step_disposed (h : Owned s) {manager : ConsumerManager.State}
    (hok : Undisturbed s .disposed) :
    Owned { s with manager, workerPools := .empty, disposing := s.disposing - 1 } := by
  refine h.of_kept (kept_of_calls rfl) ?_
  rintro n call hn hterminated ⟨owner, _, hget⟩
  have hdone := hok _ (OrderedMap.get?_eq_some_iff.mp hget)
  rw [State.terminated, hn, Option.any_some, hterminated] at hdone
  cases hdone

theorem Owned.step (h : Owned s) (htags : ConsumerManager.TagsRegistered s.manager)
    (hok : Undisturbed s event) (hsteps : Steps s event t) : Owned t := by
  cases hsteps with
  | @manager e manager hdue hs =>
    cases e with
    | removeConsumer d workers =>
      cases ConsumerManager.step_cases hs with
      | removeConsumer hd hstage => exact h.step_drop hd hstage
    | _ => exact h.step_manager hdue (ConsumerManager.step_cases hs) nofun
  | @subscribeParallel noAck manager hs =>
    refine h.of_kept (append_kept rfl rfl) ?_
    rintro n call _ _ ⟨owner, hactive, hget⟩
    exact ⟨owner, (ConsumerManager.step_cases hs).active_kept hactive nofun nofun, hget⟩
  | refused => exact h.of_kept (append_kept rfl rfl) fun _ _ hregistered => hregistered
  | registers hn => exact h.step_registers htags hn hok
  | fails => exact h.of_kept (fails_kept _) fun _ _ hregistered => hregistered
  | terminated hn => exact h.of_kept (settle_kept hn) fun _ _ hregistered => hregistered
  | disposeAll => exact h.of_kept disposeAll_kept fun _ _ hregistered => hregistered
  | disposed hs => exact h.step_disposed hok

/-! ## Runs -/

theorem managed_manager (s : State) (event : ConsumerManager.Event)
    (manager : ConsumerManager.State) : (s.managed event manager).manager = manager := by
  unfold managed
  split
  · split <;> rfl
  · split
    · split <;> rfl
    · rfl
  · split <;> rfl
  · rfl

theorem Steps.manager_reached (h : Steps s event t)
    (hr : Reach ConsumerManager.step anyStep ConsumerManager.start s.manager) :
    Reach ConsumerManager.step anyStep ConsumerManager.start t.manager := by
  cases h with
  | @manager e manager hdue hs =>
    rw [managed_manager]
    exact hr.tail trivial hs
  | subscribeParallel hs | disposed hs => exact hr.tail trivial hs
  | @registers n consumerTag =>
    have hmanager : (s.register n consumerTag).manager = s.manager := by
      unfold register
      split <;> rfl
    rw [hmanager]
    exact hr
  | _ => exact hr

theorem manager_reached {ok : State → Event → Prop} (hr : Reach step ok start s) :
    Reach ConsumerManager.step anyStep ConsumerManager.start s.manager :=
  hr.invariant (I := fun s => Reach ConsumerManager.step anyStep ConsumerManager.start s.manager)
    .refl fun h _ hs => (step_cases hs).manager_reached h

theorem owned (hr : Reach step Undisturbed start s) : Owned s := by
  refine hr.invariant_of manager_reached ?_ fun hm _ h hok hs =>
    h.step (ConsumerManager.tags_registered hm) hok (step_cases hs)
  intro n call hn
  cases hn

instance (workerPool : Nat) : Decidable (s.Registered workerPool) := by
  unfold State.Registered
  infer_instance

/-- When no call of `subscribeParallel` is in progress, every worker pool was terminated, or belongs
to a consumer. -/
theorem no_worker_pool_leaks (hr : Reach step Undisturbed start s)
    (hidle : ∀ call ∈ s.calls, call.stage = .settled) {workerPool : Nat}
    (h : workerPool < s.calls.length) : s.terminated workerPool ∨ s.Registered workerPool := by
  have hcall := List.getElem?_eq_getElem h
  generalize s.calls[workerPool] = call at hcall
  have hsettled := hidle call (List.mem_of_getElem? hcall)
  rw [State.terminated, hcall, Option.any_some]
  cases hterminated : call.terminated with
  | true => exact .inl rfl
  | false =>
    refine .inr (owned hr workerPool call hcall hterminated ?_)
    rw [hsettled]
    rfl

/-- The first events of a client that is connected, in which the first call subscribes. -/
def subscribes : List Event :=
  [.manager .poolInstalled, .manager .recreateAll, .manager .recreated, .subscribeParallel false,
    .manager (.channelOpened 0), .manager (.setupContinues 0), .manager (.prefetched 0),
    .manager (.consumeOk 0 7), .manager (.setupCompletes 0), .registers 0]

/-- One call registers its pool, and another fails for want of a channel. -/
theorem second_call_fails : ∃ s, Reach step Undisturbed start s ∧ s.calls.length = 2 ∧
    (s.terminated 0 ∨ s.Registered 0) ∧ (s.terminated 1 ∨ s.Registered 1) := by
  have hrun : (run step Undisturbed start (subscribes ++ [.subscribeParallel false,
      .manager (.setupFails 1), .manager (.removeConsumer 0 false), .manager (.dropped 0), .fails 1,
      .terminated 1])).any (fun s =>
        decide ((∀ call ∈ s.calls, call.stage = .settled) ∧ s.calls.length = 2)) := by
    decide +kernel
  obtain ⟨s, hs, h⟩ := (Option.any_eq_true _ _).mp hrun
  obtain ⟨hidle, hlength⟩ := of_decide_eq_true h
  have hr := reach_of_run hs
  refine ⟨s, hr, hlength, ?_, ?_⟩
  · exact no_worker_pool_leaks hr hidle (by omega)
  · exact no_worker_pool_leaks hr hidle (by omega)

/-- Nothing is in progress: no call of `subscribeParallel`, `unsubscribe` or `disposeAll`, no drop of a
consumer and no recreation. -/
structure State.Idle (s : State) : Prop where
  calls : ∀ call ∈ s.calls, call.stage = .settled
  disposing : s.disposing = 0
  unsubscribes : ∀ unsubscribe ∈ s.manager.unsubscribes, unsubscribe.stage = .resolved
  drops : ∀ drop ∈ s.manager.drops, drop.stage = .done
  recreating : s.manager.recreating = []
  setups : ∀ setup ∈ s.manager.setups, setup.stage.isSettled

instance : Decidable s.Idle :=
  decidable_of_iff ((∀ call ∈ s.calls, call.stage = .settled) ∧ s.disposing = 0 ∧
      (∀ unsubscribe ∈ s.manager.unsubscribes, unsubscribe.stage = .resolved) ∧
      (∀ drop ∈ s.manager.drops, drop.stage = .done) ∧ s.manager.recreating = [] ∧
      ∀ setup ∈ s.manager.setups, setup.stage.isSettled)
    ⟨fun ⟨h₁, h₂, h₃, h₄, h₅, h₆⟩ => ⟨h₁, h₂, h₃, h₄, h₅, h₆⟩,
      fun ⟨h₁, h₂, h₃, h₄, h₅, h₆⟩ => ⟨h₁, h₂, h₃, h₄, h₅, h₆⟩⟩

/-- The second call registers its pool while `disposeAll` awaits the pool of the first. -/
theorem registers_while_disposing : ∃ s, Reach step anyStep start s ∧ s.Idle ∧
    s.calls.length = 2 ∧ ¬ s.terminated 1 ∧ ¬ s.Registered 1 := by
  have hrun : (run step anyStep start (subscribes ++ [.subscribeParallel false,
      .manager (.channelOpened 1), .manager (.setupContinues 1), .manager (.prefetched 1), .disposeAll,
      .manager (.consumeOk 1 8), .manager (.setupCompletes 1), .registers 1, .disposed])).any
      (fun s => decide (s.Idle ∧ s.calls.length = 2 ∧ ¬ s.terminated 1 ∧ ¬ s.Registered 1)) := by
    decide +kernel
  obtain ⟨s, hs, h⟩ := (Option.any_eq_true _ _).mp hrun
  exact ⟨s, reach_of_run hs, of_decide_eq_true h⟩

end SubscribeParallel
end RabbitMQ
