import RabbitMQ.Consumers.ConsumePipeline.Aside
import RabbitMQ.Consumers.Consuming.Sheltering
import RabbitMQ.Consumers.Shutdown
import RabbitMQ.Consumers.SubscribeParallel.Pools
import RabbitMQ.Consumers.WorkerPool.Bookkeeping

/-! The handlers that run on a worker pool: each awaits the call of `run` that it made, until that
call has its result.

A call that is cut short was waiting when its pool was terminated, or in flight on a worker of that
pool, or made after that. -/

namespace RabbitMQ

namespace Consuming

open Transition

variable {α : Type} [DecidableEq α] [ToString α] {s t : State α} {options : Nat → Options}
  {drainTimeout tag : Nat} {event : Event α}

/-- A step goes on with the pipeline, and keeps the setups with their consumers. -/
theorem Consistent.carries (h : Consistent s) (H : Steps options drainTimeout s event t) :
    Reach ConsumePipeline.step anyStep s.pipeline t.pipeline ∧
      ∀ {k X}, s.consumerOf k = some X → t.consumerOf k = some X := by
  cases H with
  | @manager event manager hdue hs =>
    have hsteps := ConsumerManager.step_cases hs
    obtain ⟨hmanager, -⟩ := managed_frame s options event manager
    refine ⟨(h.arranged options hsteps).1.toAny, fun hX => ?_⟩
    exact consumerOf_kept (t := s.managed options event manager) (hmanager ▸ hsteps) hX
  | deliver hk hmanager hpipeline =>
    refine ⟨.tail .refl trivial hpipeline, fun hX => ?_⟩
    exact consumerOf_kept (ConsumerManager.step_cases hmanager) hX
  | @pipeline env event pipeline hown hquiet hs =>
    obtain ⟨hpipeline, -, -, -, -, hsetups⟩ := piped_frame s event pipeline
    refine ⟨?_, fun hX => ?_⟩
    · rw [hpipeline]
      exact .tail .refl trivial hs
    · rw [State.consumerOf, hsetups]
      exact hX
  | tick => exact ⟨.refl, id⟩

/-- Only an event of the pipeline that takes on its callback moves a delivery. -/
theorem Consistent.place_kept (h : Consistent s) (H : Steps options drainTimeout s event t)
    (htag : tag ∈ s.pipeline.deliveries)
    (hevent : ∀ env e, event = .pipeline env e → e.delivery? ≠ some tag) :
    t.pipeline.place? tag = s.pipeline.place? tag := by
  cases H with
  | @manager event manager =>
    obtain ⟨-, -, -, -, hdeliveries, -⟩ := managed_frame s options event manager
    rw [ConsumePipeline.State.place?, hdeliveries]
    rfl
  | deliver hk hmanager hpipeline =>
    cases ConsumePipeline.step_cases hpipeline with
    | deliver hsub hfresh =>
      refine (ConsumePipeline.place?_set tag).trans (if_neg ?_)
      rintro rfl
      exact hfresh htag
  | @pipeline env event pipeline hown hquiet hs =>
    obtain ⟨hpipeline, -⟩ := piped_frame s event pipeline
    have haccounted := ConsumePipeline.accounted h.pipeline
    have hmoves := ((ConsumePipeline.step_cases hs).moves (ConsumePipeline.running h.pipeline)
      (fun tag d hd => (haccounted.attributed.delivery tag d hd).1) ?_).1
    · rw [hpipeline]
      exact hmoves.others tag (hevent env event rfl)
    · rintro id message rfl
      cases hown
  | tick => rfl

theorem Steps.pipelined {env : ConsumePipeline.Env α} {e : ConsumePipeline.Event α}
    (H : Steps options drainTimeout s (.pipeline env e) t) :
    fromManager e = false ∧
      ∃ pipeline, ConsumePipeline.step s.pipeline (env, e) = some pipeline := by
  cases H with
  | pipeline hown _ hs => exact ⟨hown, _, hs⟩

/-- The handler of a delivery of a plain subscription is called once its content is decoded. -/
theorem Steps.decoded {env : ConsumePipeline.Env α} {d : ConsumePipeline.Delivery α}
    {sub : ConsumePipeline.Subscription}
    (H : Steps options drainTimeout s (.pipeline env (.decoded tag)) t)
    (hl : s.pipeline.lookup tag = some (d, sub)) (hplain : sub.sequential = none)
    (htag : d.message.tag = tag) :
    d.stage = .decoding ∧ t.pipeline.place? tag = some (d.subscription, .handling) := by
  have hd := (ConsumePipeline.lookup_eq_some.mp hl).1
  generalize hevent : Event.pipeline env (.decoded tag) = event at H
  cases H with
  | @pipeline _ _ pipeline _ _ hs =>
    cases hevent
    rw [(piped_frame s _ pipeline).1]
    cases ConsumePipeline.step_cases hs with
    | decoded hl' hstage =>
      cases hl.symm.trans hl'
      refine ⟨hstage, ?_⟩
      unfold ConsumePipeline.State.processMessage
      rw [hplain, htag]
      exact ConsumePipeline.place?_of_get? (ConsumePipeline.setStage_get? hd _)
  | _ => cases hevent

theorem Consistent.consumers_le (h : Consistent s) (H : Steps options drainTimeout s event t) :
    s.manager.consumers.length ≤ t.manager.consumers.length := by
  have hsteps : ∀ {event manager}, ConsumerManager.step s.manager event = some manager →
      s.manager.consumers.length ≤ manager.consumers.length := fun hs => by
    rw [(ConsumerManager.step_cases hs).consumers_length]
    exact Nat.le_add_right ..
  cases H with
  | @manager event manager hdue hs =>
    rw [(managed_frame s options event manager).1]
    exact hsteps hs
  | deliver hk hmanager hpipeline => exact hsteps hmanager
  | pipeline hown hquiet hs =>
    cases (h.pipes hown hs).1 with
    | stays hmanager =>
      exact Nat.le_of_eq (congrArg (fun manager => manager.consumers.length) hmanager).symm
    | returns hc hmanager =>
      rw [hmanager]
      unfold ConsumerManager.State.handled
      dsimp only
      split <;> exact Nat.le_of_eq (List.length_modify ..).symm
  | tick => exact Nat.le_refl _

/-- The subscriptions are what their consumers were subscribed with. -/
def Planned (options : Nat → Options) (s : State α) : Prop :=
  ∀ {k sub X}, s.pipeline.subscriptions.get? k = some sub → s.consumerOf k = some X →
    sub.sequential = (options X).sequential

theorem Planned.step (h : Planned options s) (hconsistent : Consistent s)
    (H : Steps options drainTimeout s event t) : Planned options t := by
  obtain ⟨-, hcarries⟩ := hconsistent.carries H
  have hkept : ∀ {k sub X}, s.pipeline.subscriptions.get? k = some sub →
      t.consumerOf k = some X → sub.sequential = (options X).sequential := by
    intro k sub X hsub hX
    obtain ⟨setup, hsetup, -⟩ := hconsistent.subscriptions hsub
    have howner : s.consumerOf k = some setup.consumer := by
      rw [State.consumerOf, hsetup]
      rfl
    cases hX.symm.trans (hcarries howner)
    exact h hsub howner
  intro k sub X hsub hX
  cases H with
  | @manager event manager hdue hs =>
    rcases managed_subscription s options event manager hsub with
      hsub | ⟨setup, -, hsetup, -, hsequential⟩
    · exact hkept hsub hX
    · have howner : s.consumerOf k = some setup.consumer := by
        rw [State.consumerOf, hsetup]
        rfl
      cases hX.symm.trans (hcarries howner)
      exact hsequential
  | deliver hk hmanager hpipeline =>
    rw [(ConsumePipeline.step_cases hpipeline).subscriptions (by simp)] at hsub
    exact hkept hsub hX
  | @pipeline env event pipeline hown hquiet hs =>
    have hsubs := (ConsumePipeline.step_cases hs).subscriptions ?_
    · rw [(piped_frame s event pipeline).1, hsubs] at hsub
      exact hkept hsub hX
    · rintro id sub rfl
      cases hown
  | tick => exact hkept hsub hX

end Consuming

namespace Shutdown

open Transition

variable {c : WorkerPool.Config} {p p' : WorkerPool.State}

/-! ## Calls that are cut short -/

theorem cutShort_settled (worker : Nat) (result : WorkerPool.RunResult) :
    cutShort (.settled result) = cutShort (.releasing worker result) := by
  cases result <;> rfl

/-- How a call of `run` can come to be cut short. -/
theorem cut_cases {event : WorkerPool.Event} (H : WorkerPool.Steps c p event p')
    (hk : WorkerPool.Kept p) {i : Nat} {r' : WorkerPool.Run} (hr' : p'.runs[i]? = some r')
    (hcut : cutShort r') :
    (∃ r, p.runs[i]? = some r ∧ cutShort r) ∨
      (∃ worker, event = .exit worker ∧ p.runs[i]? = some (.inFlight worker)) ∨
      (event = .terminate ∧ p.runs[i]? = some .waiting) ∨ event = .run := by
  have hsettleOn : ∀ {worker result}, (p.settleOn worker result).runs[i]? = some r' →
      (∃ r, p.runs[i]? = some r ∧ cutShort r) ∨
        p.runs[i]? = some (.inFlight worker) ∧ r' = .releasing worker result := by
    intro worker result h
    rw [WorkerPool.settleOn_get] at h
    obtain ⟨r, hr, rfl⟩ := Option.map_eq_some_iff.mp h
    cases r with
    | inFlight w =>
      dsimp only at hcut ⊢
      split at hcut
      · next heq =>
        subst heq
        exact .inr ⟨hr, if_pos rfl⟩
      · cases hcut
    | _ => exact .inl ⟨_, hr, hcut⟩
  cases H with
  | run => exact .inr (.inr (.inr rfl))
  | posts | postThrows =>
    rcases List.getElem?_set_cases hr' with ⟨-, rfl⟩ | ⟨-, hr⟩
    · cases hcut
    · exact .inl ⟨r', hr, hcut⟩
  | finishes hrun =>
    rcases WorkerPool.release_back hr' with hr | rfl
    · rcases List.getElem?_set_cases hr with ⟨rfl, rfl⟩ | ⟨-, hr⟩
      · exact .inl ⟨_, hrun, (cutShort_settled ..).symm.trans hcut⟩
      · exact .inl ⟨r', hr, hcut⟩
    · cases hcut
  | answers | terminateFails | terminateResumes => exact .inl ⟨r', hr', hcut⟩
  | message =>
    rcases hsettleOn hr' with h | ⟨-, rfl⟩
    · exact .inl h
    · cases hcut
  | error =>
    rcases hsettleOn hr' with h | ⟨-, rfl⟩
    · exact .inl h
    · cases hcut
  | @exit worker t hquiet ht hlive =>
    have hback : (p.settleOn worker (.rejected .exited)).runs[i]? = some r' := by
      unfold WorkerPool.State.exit WorkerPool.State.respawn at hr'
      dsimp only at hr'
      split at hr'
      · exact hr'
      · split at hr'
        · exact (WorkerPool.release_back hr').resolve_right fun heq => by
            subst heq
            cases hcut
        · split at hr'
          · exact (WorkerPool.reject_back hr').resolve_right fun heq => by
              subst heq
              cases hcut
          · exact hr'
    rcases hsettleOn hback with h | ⟨h, -⟩
    · exact .inl h
    · exact .inr (.inl ⟨worker, rfl, h⟩)
  | terminate =>
    have hget := (WorkerPool.rejected_get hk .terminated i).symm.trans hr'
    obtain ⟨r, hr, rfl⟩ := Option.map_eq_some_iff.mp hget
    by_cases hwaiting : r = .waiting
    · exact .inr (.inr (.inl ⟨rfl, hwaiting ▸ hr⟩))
    · rw [if_neg hwaiting] at hcut
      exact .inl ⟨r, hr, hcut⟩

/-! ## Steps -/

variable {α : Type} {s t : State α} {config : Nat → WorkerPool.Config}
  {options : Nat → Consuming.Options} {drainTimeout n tag : Nat}

theorem run_frame (s : State α) (tag : Nat) :
    (s.run tag).consuming = s.consuming ∧ (s.run tag).handlerPools = s.handlerPools ∧
      (s.run tag).ended = s.ended := by
  unfold State.run
  split <;> exact ⟨rfl, rfl, rfl⟩

theorem consumes_frame (s : State α) (event : Consuming.Event α)
    (consuming : Consuming.State α) :
    (s.consumes event consuming).consuming = consuming ∧
      (s.consumes event consuming).handlerPools = s.handlerPools ∧
      (s.consumes event consuming).ended = s.ended := by
  unfold State.consumes
  split
  · exact ⟨rfl, (run_frame ..).2⟩
  · exact ⟨rfl, rfl, rfl⟩

/-- What a step does to a pool. -/
inductive PoolMoves (config : Nat → WorkerPool.Config) (s : State α) (n : Nat)
    (pool : WorkerPool.State) : Event α → WorkerPool.State → Prop
  | kept {event} : PoolMoves config s n pool event pool
  | ended {event} (hn : n ∈ s.terminates event) (hlive : pool.terminated = false) :
      PoolMoves config s n pool (.parallel event) pool.terminate
  | run {env tag} (hpool : s.poolOf tag = some n) :
      PoolMoves config s n pool (.consuming (.pipeline env (.decoded tag))) pool.run
  | moves {event pool'} (hown : ofPool event)
      (hs : WorkerPool.step (config n) pool event = some pool') :
      PoolMoves config s n pool (.pool n event) pool'

/-- The pool of a delivery, by its consumer. -/
theorem poolOf_eq_some : s.poolOf tag = some n ↔ ∃ d X, s.pipeline.deliveries.get? tag = some d ∧
    s.consuming.consumerOf d.subscription = some X ∧ s.handlerPools.get? X = some n := by
  simp only [State.poolOf, Option.bind_eq_some_iff]
  constructor
  · rintro ⟨X, ⟨d, hd, hX⟩, hn⟩
    exact ⟨d, X, hd, hX, hn⟩
  · rintro ⟨d, X, hd, hX, hn⟩
    exact ⟨X, ⟨d, hd, hX⟩, hn⟩

theorem runOf_eq_some {run : WorkerPool.Run} : s.runOf tag = some (n, run) ↔
    ∃ i pool, s.poolOf tag = some n ∧ s.runs.get? tag = some i ∧ s.pools[n]? = some pool ∧
      pool.runs[i]? = some run := by
  simp only [State.runOf, Option.bind_eq_some_iff, Option.map_eq_some_iff, Prod.mk.injEq]
  constructor
  · rintro ⟨m, hm, i, hi, run', ⟨pool, hpool, hrun⟩, rfl, rfl⟩
    exact ⟨i, pool, hm, hi, hpool, hrun⟩
  · rintro ⟨i, pool, hn, hi, hpool, hrun⟩
    exact ⟨n, hn, i, hi, run, ⟨pool, hpool, hrun⟩, rfl, rfl⟩

/-- What moves a pool is a step of it. -/
theorem PoolMoves.step_cases {event : Event α} {pool pool' : WorkerPool.State}
    (H : PoolMoves config s n pool event pool') :
    pool' = pool ∨ ∃ e, WorkerPool.step (config n) pool e = some pool' := by
  cases H with
  | kept => exact .inl rfl
  | ended hn hlive =>
    refine .inr ⟨.terminate, ?_⟩
    simp [WorkerPool.step, WorkerPool.Event.emitted, hlive]
  | run => exact .inr ⟨.run, by simp [WorkerPool.step, WorkerPool.Event.emitted]⟩
  | moves hown hs => exact .inr ⟨_, hs⟩

/-- The calls of `run` stay, and one that has its result keeps it. -/
theorem PoolMoves.run_kept {event : Event α} {pool pool' : WorkerPool.State}
    (H : PoolMoves config s n pool event pool') (hk : WorkerPool.Kept pool) {i : Nat}
    {r : WorkerPool.Run} (hr : pool.runs[i]? = some r) :
    ∃ r', pool'.runs[i]? = some r' ∧ (r'.result = none → r.result = none) := by
  rcases H.step_cases with rfl | ⟨e, hs⟩
  · exact ⟨r, hr, id⟩
  · have hsteps := WorkerPool.step_cases hs
    cases hresult : r.result with
    | none =>
      have hlt := (List.getElem?_eq_some_iff.mp hr).1
      exact ⟨_, List.getElem?_eq_getElem (Nat.lt_of_lt_of_le hlt hsteps.length_le), fun _ => rfl⟩
    | some result =>
      obtain ⟨r', hr', hresult'⟩ := hsteps.once hk hr hresult
      refine ⟨r', hr', fun hnone => ?_⟩
      cases hresult'.symm.trans hnone

theorem PoolMoves.terminated {event : Event α} {pool pool' : WorkerPool.State}
    (H : PoolMoves config s n pool event pool') (h : pool.terminated) : pool'.terminated := by
  rcases H.step_cases with rfl | ⟨e, hs⟩
  · exact h
  · exact (WorkerPool.step_cases hs).terminated h

/-- A pool after a step of the calls is one before it, or a new one. -/
theorem called_pools (event : SubscribeParallel.Event) (parallel : SubscribeParallel.State)
    {pool' : WorkerPool.State}
    (h : (s.called config options event parallel).pools[n]? = some pool') :
    (∃ pool, s.pools[n]? = some pool ∧ PoolMoves config s n pool (.parallel event) pool') ∨
      (n = s.pools.length ∧ pool' = WorkerPool.start (config n)) := by
  have hlength := List.length_mapIdx (l := s.pools)
    (f := fun n pool => if n ∈ s.terminates event then terminate pool else pool)
  unfold State.called at h
  dsimp only at h
  rcases Nat.lt_or_ge n s.pools.length with hlt | hge
  · rw [List.getElem?_append_left (hlength.symm ▸ hlt), List.getElem?_mapIdx] at h
    obtain ⟨pool, hpool, rfl⟩ := Option.map_eq_some_iff.mp h
    refine .inl ⟨pool, hpool, ?_⟩
    split
    · next hn =>
      unfold terminate
      split
      · exact .kept
      · next hlive => exact .ended hn (Bool.eq_false_iff.mpr hlive)
    · exact .kept
  · rw [List.getElem?_append_right (hlength.symm ▸ hge), hlength] at h
    have hone : (created (config s.pools.length) event).length ≤ 1 := by
      unfold created
      split <;> simp
    have hlt := (List.getElem?_eq_some_iff.mp h).1
    have hn : n = s.pools.length := by omega
    subst hn
    rw [Nat.sub_self] at h
    unfold created at h
    split at h
    · cases h
      exact .inr ⟨rfl, rfl⟩
    · cases h
      exact .inr ⟨rfl, rfl⟩
    · cases h

variable [DecidableEq α] [ToString α] {event : Event α}

theorem Steps.pool_cases (H : Steps config options drainTimeout s event t)
    {pool' : WorkerPool.State} (h : t.pools[n]? = some pool') :
    (∃ pool, s.pools[n]? = some pool ∧ PoolMoves config s n pool event pool') ∨
      (n = s.pools.length ∧ pool' = WorkerPool.start (config n)) := by
  cases H with
  | @parallel event parallel =>
    have h : (s.called config options event parallel).pools[n]? = some pool' := h
    exact called_pools event parallel h
  | @consuming event consuming hown hs =>
    replace h : (s.consumes event consuming).pools[n]? = some pool' := h
    unfold State.consumes at h
    split at h
    · next env tag =>
      unfold State.run at h
      split at h
      · exact .inl ⟨pool', h, .kept⟩
      · next m hm =>
        obtain ⟨pool, hpool, rfl⟩ := List.getElem?_modify_cases h
        refine .inl ⟨pool, hpool, ?_⟩
        split
        · next heq =>
          subst heq
          exact .run hm
        · exact .kept
    · exact .inl ⟨pool', h, .kept⟩
  | handled => exact .inl ⟨pool', h, .kept⟩
  | @pool m event pool₀ pool₁ hown hm hs =>
    rcases List.getElem?_set_cases h with ⟨rfl, rfl⟩ | ⟨-, h⟩
    · exact .inl ⟨pool₀, hm, .moves hown hs⟩
    · exact .inl ⟨pool', h, .kept⟩

theorem Steps.pools_length (H : Steps config options drainTimeout s event t) :
    s.pools.length ≤ t.pools.length := by
  cases H with
  | parallel =>
    refine Nat.le_trans ?_ (Nat.le_of_eq List.length_append.symm)
    rw [List.length_mapIdx]
    exact Nat.le_add_right ..
  | consuming =>
    refine Nat.le_of_eq ?_
    unfold State.noted State.consumes State.run
    dsimp only
    split
    · split
      · rfl
      · exact (List.length_modify ..).symm
    · rfl
  | handled => exact Nat.le_refl _
  | pool => exact Nat.le_of_eq List.length_set.symm

/-- A pool goes on. -/
theorem Steps.pool_kept (H : Steps config options drainTimeout s event t)
    {pool : WorkerPool.State} (h : s.pools[n]? = some pool) :
    ∃ pool', t.pools[n]? = some pool' ∧ PoolMoves config s n pool event pool' := by
  have hlt := (List.getElem?_eq_some_iff.mp h).1
  have h' := List.getElem?_eq_getElem (Nat.lt_of_lt_of_le hlt H.pools_length)
  rcases H.pool_cases h' with ⟨pool₀, hpool₀, hmoves⟩ | ⟨heq, -⟩
  · cases h.symm.trans hpool₀
    exact ⟨_, h', hmoves⟩
  · exact absurd hlt (heq ▸ Nat.lt_irrefl _)

/-- What a step is for the consumers. -/
inductive Carries (options : Nat → Consuming.Options) (drainTimeout : Nat) (s t : State α)
    (event : Event α) : Prop
  | same (hsame : t.consuming = s.consuming)
  | manager {e : ConsumerManager.Event}
      (hsteps : Consuming.Steps options drainTimeout s.consuming (.manager e) t.consuming)
  | own {e : Consuming.Event α} (hevent : event = .consuming e) (hown : s.own e)
      (hsteps : Consuming.Steps options drainTimeout s.consuming e t.consuming)
  | handled {env : ConsumePipeline.Env α} {tag : Nat} {failure : Option Value} {n : Nat}
      {run : WorkerPool.Run} {e : ConsumePipeline.Event α} (hrun : s.runOf tag = some (n, run))
      (hevent : messageHandler tag failure run = some e)
      (hsteps : Consuming.Steps options drainTimeout s.consuming (.pipeline env e) t.consuming)

theorem Steps.carries (H : Steps config options drainTimeout s event t) :
    Carries options drainTimeout s t event := by
  cases H with
  | @parallel event parallel hdue hs =>
    cases SubscribeParallel.step_cases hs with
    | @manager e manager _ hmanaged =>
      have hmanager := SubscribeParallel.managed_manager s.parallel e manager
      refine .manager (e := e) ?_
      change Consuming.Steps options drainTimeout s.consuming (.manager e)
        (s.consuming.managed options e _)
      rw [hmanager]
      exact .manager hdue hmanaged
    | subscribeParallel hmanaged | disposed hmanaged => exact .manager (.manager rfl hmanaged)
    | _ => exact .same rfl
  | @consuming event consuming hown hs =>
    refine .own rfl hown ?_
    change Consuming.Steps options drainTimeout s.consuming event (s.consumes event consuming).consuming
    rw [(consumes_frame ..).1]
    exact Consuming.step_cases hs
  | handled hrun hevent hs => exact .handled hrun hevent (Consuming.step_cases hs)
  | pool => exact .same rfl

/-- A step is a step of the consumers, or nothing to them. -/
theorem Steps.consuming_cases (H : Steps config options drainTimeout s event t) :
    t.consuming = s.consuming ∨
      ∃ e, Consuming.Steps options drainTimeout s.consuming e t.consuming := by
  cases H.carries with
  | same hsame => exact .inl hsame
  | manager hsteps | own _ _ hsteps | handled _ _ hsteps => exact .inr ⟨_, hsteps⟩

/-! ## Calls of handlers -/

/-- The pools are pools that run, their handlers are plain, and a handler that awaits its call of
`run` has not settled. -/
structure Sound (config : Nat → WorkerPool.Config) (options : Nat → Consuming.Options)
    (s : State α) : Prop where
  consistent : Consuming.Consistent s.consuming
  planned : Consuming.Planned options s.consuming
  pools : ∀ {n pool}, s.pools[n]? = some pool →
    Reach (WorkerPool.step (config n)) anyStep (WorkerPool.start (config n)) pool
  handlers : ∀ {X n}, s.handlerPools.get? X = some n →
    X < s.manager.consumers.length ∧ n < s.pools.length ∧ (options X).sequential = none
  called : ∀ {tag}, tag ∈ s.runs → tag ∈ s.pipeline.deliveries ∧ ∃ n run,
    s.runOf tag = some (n, run) ∧
      (run.result = none → ∃ id, s.pipeline.place? tag = some (id, .handling))
  ended : ∀ {n}, n ∈ s.ended → ∃ pool, s.pools[n]? = some pool ∧ pool.terminated

theorem sound_start : Sound config options (start : State α) where
  consistent := Consuming.consistent_start
  planned hsub := by cases hsub
  pools hn := by cases hn
  handlers hX := by cases hX
  called htag := by cases htag
  ended hn := by cases hn

/-- A handler on a pool is the handler of a plain subscription. -/
theorem Sound.plain (h : Sound config options s) (hn : s.poolOf tag = some n) :
    n < s.pools.length ∧ ∃ d sub, s.pipeline.lookup tag = some (d, sub) ∧ sub.sequential = none := by
  obtain ⟨d, X, hd, hX, hpool⟩ := poolOf_eq_some.mp hn
  obtain ⟨-, hlt, hplain⟩ := h.handlers hpool
  obtain ⟨-, sub, hl, -⟩ :=
    (ConsumePipeline.accounted h.consistent.pipeline).attributed.delivery tag d hd
  refine ⟨hlt, d, sub, hl, ?_⟩
  rw [h.planned (ConsumePipeline.lookup_eq_some.mp hl).2 hX, hplain]

/-- A handler runs on the pool of its consumer for good. -/
theorem Steps.handlers_cases (H : Steps config options drainTimeout s event t) :
    t.handlerPools = s.handlerPools ∨
      t.handlerPools = s.handlerPools.set s.manager.consumers.length s.pools.length ∧
        t.pools.length = s.pools.length + 1 ∧
        t.manager.consumers.length = s.manager.consumers.length + 1 ∧
        (options s.manager.consumers.length).sequential = none := by
  cases H with
  | @parallel event parallel hdue hs =>
    cases event with
    | subscribeParallel noAck =>
      obtain ⟨manager, hmanager, rfl⟩ := Option.map_eq_some_iff.mp hs
      have hlength := (ConsumerManager.step_cases hmanager).consumers_length
      refine .inr ⟨rfl, ?_, ?_, Option.isNone_iff_eq_none.mp hdue⟩
      · simp [State.noted, State.called, created]
      · change (s.consuming.managed options (.subscribe noAck) manager).manager.consumers.length = _
        rw [(Consuming.managed_frame ..).1, hlength]
        rfl
    | _ => exact .inl rfl
  | consuming => exact .inl (consumes_frame ..).2.1
  | handled | pool => exact .inl rfl

theorem Sound.poolOf_kept (h : Sound config options s)
    (H : Steps config options drainTimeout s event t) (htag : tag ∈ s.pipeline.deliveries) :
    t.poolOf tag = s.poolOf tag := by
  obtain ⟨d, hd⟩ := OrderedMap.mem_iff.mp htag
  obtain ⟨setup, -, hX, hlt⟩ := h.consistent.delivery hd
  obtain ⟨d', hd', hX'⟩ : ∃ d', t.pipeline.deliveries.get? tag = some d' ∧
      t.consuming.consumerOf d'.subscription = some setup.consumer := by
    rcases H.consuming_cases with hsame | ⟨e, hsteps⟩
    · rw [State.pipeline, hsame]
      exact ⟨d, hd, hX⟩
    · obtain ⟨hreach, hcarries⟩ := h.consistent.carries hsteps
      obtain ⟨d', hd', ev⟩ := (ConsumePipeline.evolves_of_reach hreach).delivery tag d hd
      exact ⟨d', hd', ev.subscription.symm ▸ hcarries hX⟩
  have hbefore : s.poolOf tag = s.handlerPools.get? setup.consumer := by
    rw [State.poolOf, hd, Option.bind_some, hX]
    rfl
  have hafter : t.poolOf tag = t.handlerPools.get? setup.consumer := by
    rw [State.poolOf, hd', Option.bind_some, hX']
    rfl
  rw [hbefore, hafter]
  rcases H.handlers_cases with hsame | ⟨hset, -⟩
  · rw [hsame]
  · have hne : setup.consumer ≠ s.manager.consumers.length := Nat.ne_of_lt hlt
    rw [hset, OrderedMap.get?_set, if_neg hne]

omit [DecidableEq α] [ToString α] in
theorem messageHandler_cases {failure : Option Value} {run : WorkerPool.Run}
    {e : ConsumePipeline.Event α} (h : messageHandler tag failure run = some e) :
    run.result ≠ none ∧ e.delivery? = some tag := by
  unfold messageHandler at h
  split at h
  · cases h
    refine ⟨nofun, ?_⟩
    cases failure <;> rfl
  · cases h
    exact ⟨nofun, rfl⟩
  · cases h

/-- A handler that awaits a call of `run` without a result goes on to await it. -/
theorem Sound.handling_kept (h : Sound config options s)
    (H : Steps config options drainTimeout s event t) {run : WorkerPool.Run} {id : Nat}
    (hrun : s.runOf tag = some (n, run)) (hopen : run.result = none)
    (hplace : s.pipeline.place? tag = some (id, .handling)) :
    t.pipeline.place? tag = some (id, .handling) := by
  obtain ⟨-, -, hn, -⟩ := runOf_eq_some.mp hrun
  obtain ⟨-, d, sub, hl, hplain⟩ := h.plain hn
  obtain ⟨hd, hsub⟩ := ConsumePipeline.lookup_eq_some.mp hl
  have hmem : tag ∈ s.consuming.pipeline.deliveries := OrderedMap.mem_of_get? hd
  have hstage : d.stage = .handling := by
    have heq := (ConsumePipeline.place?_of_get? hd).symm.trans hplace
    exact (Prod.mk.inj (Option.some.inj heq)).2
  refine Eq.trans ?_ hplace
  cases H.carries with
  | same hsame => rw [State.pipeline, hsame]; rfl
  | manager hsteps => exact h.consistent.place_kept hsteps hmem nofun
  | @own e hevent hown hsteps =>
    refine h.consistent.place_kept hsteps hmem ?_
    rintro env e rfl he
    have hstages : ∀ {d' sub' stage}, s.pipeline.lookup tag = some (d', sub') →
        d'.stage = stage → stage = .handling := by
      intro d' sub' stage hl' hstage'
      cases hl.symm.trans hl'
      exact hstage'.symm.trans hstage
    obtain ⟨-, pipeline, hs⟩ := hsteps.pipelined
    cases ConsumePipeline.step_cases hs with
    | subscribe | deliver | ackMessage | nackMessage => cases he
    | decoded hl' hstage' | undecodable hl' hstage' | caught hl' hstage' =>
      cases he
      cases hstages hl' hstage'
    | callbackResolved | callbackRejected =>
      cases he
      simp [State.own, hn] at hown
    | @processor k sub' p _ _ _ hsub' hp hsequential hlater hs' =>
      -- the processor of a sequential subscription would await it
      have hrunning := ConsumePipeline.running h.consistent.pipeline
      rcases (SequentialProcessor.step_cases hs').answers hlater with
        ⟨root, hroot, hmem', -⟩ | ⟨hnone, -⟩
      · cases hroot.symm.trans he
        have hheld := hrunning.called _ p hp _ hmem'
        have hk := (Prod.mk.inj (Option.some.inj
          (hheld.symm.trans (ConsumePipeline.place?_of_get? hd)))).1
        subst hk
        cases hsub.symm.trans hsub'
        cases hplain.symm.trans hsequential
      · cases hnone.symm.trans he
  | @handled env tag' failure m run' e hrun' hmessage hsteps =>
    refine h.consistent.place_kept hsteps hmem ?_
    rintro env e heq he
    cases heq
    obtain ⟨hresult, hdelivery⟩ := messageHandler_cases hmessage
    cases hdelivery.symm.trans he
    cases hrun.symm.trans hrun'
    exact hresult hopen

omit [DecidableEq α] [ToString α] in
theorem called_pool {pool : WorkerPool.State} (event : SubscribeParallel.Event)
    (parallel : SubscribeParallel.State) (h : s.pools[n]? = some pool) :
    (s.called config options event parallel).pools[n]? =
      some (if n ∈ s.terminates event then terminate pool else pool) := by
  have hlt := (List.getElem?_eq_some_iff.mp h).1
  unfold State.called
  dsimp only
  rw [List.getElem?_append_left (by rwa [List.length_mapIdx]), List.getElem?_mapIdx, h]
  rfl

omit [DecidableEq α] [ToString α] in
theorem mem_ends {e : SubscribeParallel.Event} : n ∈ s.ends e ↔ s.shutsDown e ∧
    n ∈ s.terminates e ∧ ∃ pool, s.pools[n]? = some pool ∧ pool.terminated = false := by
  unfold State.ends
  split
  · next hshuts => simp [hshuts, Option.any_eq_true]
  · next hshuts => simp [hshuts]

/-- The pools that ended in a shutdown. -/
theorem Steps.ended_cases (H : Steps config options drainTimeout s event t) :
    t.ended = s.ended ∨ ∃ e, event = .parallel e ∧ t.ended = s.ended ++ s.ends e := by
  cases H with
  | parallel => exact .inr ⟨_, rfl, rfl⟩
  | consuming => exact .inl (consumes_frame ..).2.2
  | handled | pool => exact .inl rfl

/-- A handler that runs on a pool calls `run` of it, and no other step does. -/
theorem Steps.runs_cases (H : Steps config options drainTimeout s event t) :
    t.runs = s.runs ∨ ∃ env tag n, event = .consuming (.pipeline env (.decoded tag)) ∧
      s.poolOf tag = some n ∧ t.pools = s.pools.modify n WorkerPool.State.run ∧
      t.runs = s.runs.set tag ((s.pools[n]?.map (·.runs.length)).getD 0) := by
  cases H with
  | parallel | handled | pool => exact .inl rfl
  | @consuming event consuming =>
    change (s.consumes event consuming).runs = s.runs ∨ ∃ env tag n, _ ∧ _ ∧
      (s.consumes event consuming).pools = _ ∧ (s.consumes event consuming).runs = _
    unfold State.consumes State.run
    split
    · rename_i env tag _ _
      cases hn : s.poolOf tag with
      | none => exact .inl rfl
      | some n => exact .inr ⟨env, tag, n, rfl, hn, rfl, rfl⟩
    · exact .inl rfl

/-- A delivery whose handler is called awaits it. -/
theorem Sound.decoded (h : Sound config options s) {env : ConsumePipeline.Env α}
    (H : Steps config options drainTimeout s (.consuming (.pipeline env (.decoded tag))) t)
    (hn : s.poolOf tag = some n) :
    (∃ id, s.pipeline.place? tag = some (id, .decoding)) ∧
      ∃ id, t.pipeline.place? tag = some (id, .handling) := by
  obtain ⟨-, d, sub, hl, hplain⟩ := h.plain hn
  have hd := (ConsumePipeline.lookup_eq_some.mp hl).1
  have htag :=
    ((ConsumePipeline.accounted h.consistent.pipeline).attributed.delivery tag d hd).1
  cases H with
  | @consuming _ consuming hown hs =>
    obtain ⟨hstage, hplace⟩ := (Consuming.step_cases hs).decoded hl hplain htag
    refine ⟨⟨d.subscription, hstage ▸ ConsumePipeline.place?_of_get? hd⟩, d.subscription, ?_⟩
    change (s.consumes _ consuming).consuming.pipeline.place? tag = _
    rw [(consumes_frame ..).1]
    exact hplace

theorem Sound.deliveries_kept (h : Sound config options s)
    (H : Steps config options drainTimeout s event t) (htag : tag ∈ s.pipeline.deliveries) :
    tag ∈ t.pipeline.deliveries := by
  rcases H.consuming_cases with hsame | ⟨e, hsteps⟩
  · rw [State.pipeline, hsame]
    exact htag
  · obtain ⟨d, hd⟩ := OrderedMap.mem_iff.mp htag
    obtain ⟨d', hd', -⟩ :=
      (ConsumePipeline.evolves_of_reach (h.consistent.carries hsteps).1).delivery tag d hd
    exact OrderedMap.mem_of_get? hd'

theorem Sound.kept (h : Sound config options s) {pool : WorkerPool.State}
    (hn : s.pools[n]? = some pool) : WorkerPool.Kept pool :=
  (WorkerPool.kept (h.pools hn)).1

/-- The call of `run` of a delivery goes on. -/
theorem Sound.runOf_kept (h : Sound config options s)
    (H : Steps config options drainTimeout s event t) (htag : tag ∈ s.pipeline.deliveries)
    (hruns : t.runs.get? tag = s.runs.get? tag) {run : WorkerPool.Run}
    (hrun : s.runOf tag = some (n, run)) :
    ∃ run', t.runOf tag = some (n, run') ∧ (run'.result = none → run.result = none) := by
  obtain ⟨i, pool, hn, hi, hpool, hr⟩ := runOf_eq_some.mp hrun
  obtain ⟨pool', hpool', hmoves⟩ := H.pool_kept hpool
  obtain ⟨run', hr', hresult⟩ := hmoves.run_kept (h.kept hpool) hr
  have hn' := (h.poolOf_kept H htag).trans hn
  exact ⟨run', runOf_eq_some.mpr ⟨i, pool', hn', hruns.trans hi, hpool', hr'⟩, hresult⟩

theorem Sound.step (h : Sound config options s) (H : Steps config options drainTimeout s event t) :
    Sound config options t where
  consistent := by
    rcases H.consuming_cases with hsame | ⟨e, hsteps⟩
    · rw [hsame]
      exact h.consistent
    · exact h.consistent.step hsteps
  planned := by
    rcases H.consuming_cases with hsame | ⟨e, hsteps⟩
    · rw [hsame]
      exact h.planned
    · exact Consuming.Planned.step h.planned h.consistent hsteps
  pools := by
    intro n pool' hn
    rcases H.pool_cases hn with ⟨pool, hpool, hmoves⟩ | ⟨-, rfl⟩
    · rcases hmoves.step_cases with rfl | ⟨e, hs⟩
      · exact h.pools hpool
      · exact .tail (h.pools hpool) trivial hs
    · exact .refl
  handlers := by
    intro X n hX
    have hlater : s.manager.consumers.length ≤ t.manager.consumers.length := by
      rcases H.consuming_cases with hsame | ⟨e, hsteps⟩
      · exact Nat.le_of_eq (congrArg (fun c => c.manager.consumers.length) hsame.symm)
      · exact h.consistent.consumers_le hsteps
    have hold : s.handlerPools.get? X = some n →
        X < t.manager.consumers.length ∧ n < t.pools.length ∧ (options X).sequential = none := by
      intro hX
      obtain ⟨hlt, hn, hplain⟩ := h.handlers hX
      exact ⟨Nat.lt_of_lt_of_le hlt hlater, Nat.lt_of_lt_of_le hn H.pools_length, hplain⟩
    rcases H.handlers_cases with hsame | ⟨hset, hpools, hconsumers, hplain⟩
    · exact hold (hsame ▸ hX)
    · rw [hset, OrderedMap.get?_set] at hX
      split at hX
      · next heq =>
        cases hX
        subst heq
        exact ⟨by omega, by omega, hplain⟩
      · exact hold hX
  called := by
    intro tag htag
    have hold : tag ∈ s.runs → t.runs.get? tag = s.runs.get? tag →
        tag ∈ t.pipeline.deliveries ∧ ∃ n run, t.runOf tag = some (n, run) ∧
          (run.result = none → ∃ id, t.pipeline.place? tag = some (id, .handling)) := by
      intro htag hruns
      obtain ⟨hmem, n, run, hrun, hopen⟩ := h.called htag
      obtain ⟨run', hrun', hresult⟩ := h.runOf_kept H hmem hruns hrun
      refine ⟨h.deliveries_kept H hmem, n, run', hrun', fun hnone => ?_⟩
      obtain ⟨id, hplace⟩ := hopen (hresult hnone)
      exact ⟨id, h.handling_kept H hrun (hresult hnone) hplace⟩
    rcases H.runs_cases with hsame | ⟨env, tag', n, rfl, hn, hpools, hset⟩
    · exact hold (hsame ▸ htag) (by rw [hsame])
    · by_cases heq : tag = tag'
      · subst heq
        obtain ⟨d, X, hd, -⟩ := poolOf_eq_some.mp hn
        have hmem : tag ∈ s.pipeline.deliveries := OrderedMap.mem_of_get? hd
        obtain ⟨pool, hpool⟩ : ∃ pool, s.pools[n]? = some pool :=
          ⟨_, List.getElem?_eq_getElem (h.plain hn).1⟩
        have hi : t.runs.get? tag = some pool.runs.length := by
          rw [hset, OrderedMap.get?_set_self, hpool]
          rfl
        have hpool' : t.pools[n]? = some pool.run := by
          rw [hpools, List.getElem?_modify, hpool]
          simp
        have hlt : pool.runs.length < pool.run.runs.length :=
          WorkerPool.run_length pool ▸ Nat.lt_succ_self _
        have hn' := (h.poolOf_kept H hmem).trans hn
        exact ⟨h.deliveries_kept H hmem, n, _,
          runOf_eq_some.mpr ⟨_, _, hn', hi, hpool', List.getElem?_eq_getElem hlt⟩,
          fun _ => (h.decoded H hn).2⟩
      · have hruns : t.runs.get? tag = s.runs.get? tag := by
          rw [hset, OrderedMap.get?_set, if_neg heq]
        refine hold ?_ hruns
        obtain ⟨i, hi⟩ := OrderedMap.mem_iff.mp htag
        exact OrderedMap.mem_of_get? (hruns.symm.trans hi)
  ended := by
    intro n hn
    have hold : n ∈ s.ended → ∃ pool', t.pools[n]? = some pool' ∧ pool'.terminated := by
      intro hn
      obtain ⟨pool, hpool, hterminated⟩ := h.ended hn
      obtain ⟨pool', hpool', hmoves⟩ := H.pool_kept hpool
      exact ⟨pool', hpool', hmoves.terminated hterminated⟩
    rcases H.ended_cases with hsame | ⟨e, rfl, hended⟩
    · exact hold (hsame ▸ hn)
    · rw [hended] at hn
      rcases List.mem_append.mp hn with hn | hn
      · exact hold hn
      · obtain ⟨-, hterminates, pool, hpool, hlive⟩ := mem_ends.mp hn
        cases H with
        | @parallel _ parallel =>
          have hpool' : (s.called config options e parallel).pools[n]? = _ := called_pool e parallel hpool
          refine ⟨_, hpool', ?_⟩
          rw [if_pos hterminates, terminate, hlive]
          rfl

theorem sound {ok : State α → Event α → Prop}
    (hr : Reach (step config options drainTimeout) ok start s) : Sound config options s :=
  hr.invariant sound_start fun h _ hs => h.step (step_cases hs)

end Shutdown
end RabbitMQ
