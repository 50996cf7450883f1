import RabbitMQ.Consumers.ConsumePipeline.Results
import RabbitMQ.Consumers.Shutdown.Handlers

/-! What a shutdown interrupts goes back to its queue: the deliveries whose call of `run` it cuts
short.

The termination rejects that call, and the callback of the delivery takes the rejection for a
failure of its handler. Nothing is settled where there is nothing to acknowledge. -/

namespace RabbitMQ
namespace Shutdown

open Transition

variable {α : Type} {s t : State α} {config : Nat → WorkerPool.Config}
  {options : Nat → Consuming.Options} {drainTimeout n tag : Nat} {event : Event α}

/-- The pipeline settles only what has the result of its handler, and nothing that a shutdown
interrupted. -/
def HandsBack (s : State α) : Prop :=
  ∀ f ∈ s.pipeline.settlements, f.origin = .pipeline →
    f.tag ∈ s.pipeline.finished ∧ f.tag ∉ s.interrupted

namespace State

/-- There is nothing to acknowledge, or no more. -/
def spared (s : State α) (tag : Nat) : Bool :=
  (s.pipeline.lookup tag).any fun (d, sub) => sub.noAck || d.ackSettled

/-- The delivery waits for a worker of a pool that a step of the calls terminates for the shutdown,
or is on a worker that exits after that, or calls `run` after it. -/
def interrupts (s : State α) (tag : Nat) : Event α → Bool
  | .parallel event => (s.runOf tag).any fun (n, run) => n ∈ s.ends event ∧ run = .waiting
  | .pool n (.exit worker) => n ∈ s.ended ∧ s.runOf tag = some (n, .inFlight worker)
  | .consuming (.pipeline _ (.decoded tag')) => tag' = tag ∧ (s.poolOf tag).any (· ∈ s.ended)
  | _ => false

end State

/-- A step interrupts only deliveries that have nothing to acknowledge. -/
def Spares (s : State α) (event : Event α) : Prop :=
  ∀ tag ∈ s.pipeline.deliveries.keys, s.interrupts tag event → s.spared tag

instance (s : State α) (event : Event α) : Decidable (Spares s event) :=
  inferInstanceAs (Decidable (∀ tag ∈ s.pipeline.deliveries.keys, _))

/-! ## Interruptions -/

theorem mem_noted : tag ∈ (s.noted t).interrupted ↔ tag ∈ s.interrupted ∨ tag ∈ t.runs ∧
    ∃ n run, t.runOf tag = some (n, run) ∧ n ∈ t.ended ∧ cutShort run ∧ s.cutOff tag = false := by
  unfold State.noted
  dsimp only
  rw [List.mem_append, List.mem_filter, OrderedMap.mem_def]
  refine or_congr_right (and_congr_right fun _ => ?_)
  cases hrun : t.runOf tag with
  | none => simp
  | some found => simp [State.cutOff, hrun, Prod.ext_iff, and_assoc]

/-- How a call of `run` that was made comes to be cut short: it waits when its pool is terminated,
or its worker exits. -/
theorem PoolMoves.cut {pool pool' : WorkerPool.State} (H : PoolMoves config s n pool event pool')
    (hk : WorkerPool.Kept pool) {i : Nat} {run run' : WorkerPool.Run}
    (hr : pool.runs[i]? = some run) (hr' : pool'.runs[i]? = some run') (hcut : cutShort run')
    (hnot : cutShort run = false) :
    (∃ e, event = .parallel e ∧ n ∈ s.terminates e ∧ pool.terminated = false ∧ run = .waiting) ∨
      ∃ worker, event = .pool n (.exit worker) ∧ run = .inFlight worker := by
  have hsame : run = run' → False := fun heq => by
    subst heq
    cases hnot.symm.trans hcut
  cases H with
  | kept => exact (hsame (Option.some.inj (hr.symm.trans hr'))).elim
  | ended hn hlive =>
    rcases cut_cases (c := config n) (.terminate hlive) hk hr' hcut with
      ⟨r, hr₀, hcut₀⟩ | ⟨worker, heq, -⟩ | ⟨-, hwaiting⟩ | heq
    · cases hr.symm.trans hr₀
      cases hnot.symm.trans hcut₀
    · cases heq
    · exact .inl ⟨_, rfl, hn, hlive, Option.some.inj (hr.symm.trans hwaiting)⟩
    · cases heq
  | run =>
    exact (hsame (Option.some.inj ((WorkerPool.run_keeps pool hr).symm.trans hr'))).elim
  | @moves event _ hown hs =>
    rcases cut_cases (WorkerPool.step_cases hs) hk hr' hcut with
      ⟨r, hr₀, hcut₀⟩ | ⟨worker, rfl, hflight⟩ | ⟨rfl, -⟩ | rfl
    · cases hr.symm.trans hr₀
      cases hnot.symm.trans hcut₀
    · exact .inr ⟨worker, rfl, Option.some.inj (hr.symm.trans hflight)⟩
    · cases hown
    · cases hown

variable [DecidableEq α] [ToString α]

/-- A call of `run` that a step of the shutdown cuts short was waiting or in flight before it, or is
made in it. -/
theorem Sound.cut (h : Sound config options s) (H : Steps config options drainTimeout s event t)
    (htag : tag ∈ t.runs) {run : WorkerPool.Run} (hrun : t.runOf tag = some (n, run))
    (hended : n ∈ t.ended) (hcut : cutShort run) (hnot : s.cutOff tag = false) :
    s.interrupts tag event ∧ (s.poolOf tag).isSome ∧
      ∃ id stage, s.pipeline.place? tag = some (id, stage) ∧ stage.waits := by
  obtain ⟨i, pool', hn', hi, hpool', hr'⟩ := runOf_eq_some.mp hrun
  have hbefore : (∀ e, event ≠ .parallel e) → n ∈ s.ended := by
    intro hevent
    rcases H.ended_cases with hsame | ⟨e, heq, -⟩
    · exact hsame ▸ hended
    · exact absurd heq (hevent e)
  -- the call was made before
  have hold : tag ∈ s.runs → t.runs.get? tag = s.runs.get? tag → s.interrupts tag event ∧
      (s.poolOf tag).isSome ∧
        ∃ id stage, s.pipeline.place? tag = some (id, stage) ∧ stage.waits := by
    intro htag hruns
    obtain ⟨hmem, n₀, run₀, hrun₀, hopen⟩ := h.called htag
    have hcutoff : cutShort run₀ = false := by
      rwa [State.cutOff, hrun₀, Option.any_some] at hnot
    obtain ⟨i₀, pool, hn, hi₀, hpool, hr⟩ := runOf_eq_some.mp hrun₀
    cases hn'.symm.trans ((h.poolOf_kept H hmem).trans hn)
    cases hi.symm.trans (hruns.trans hi₀)
    obtain ⟨pool₁, hpool₁, hmoves⟩ := H.pool_kept hpool
    cases hpool'.symm.trans hpool₁
    have hplace : run₀.result = none → (s.poolOf tag).isSome ∧
        ∃ id stage, s.pipeline.place? tag = some (id, stage) ∧ stage.waits := by
      intro hnone
      obtain ⟨id, hid⟩ := hopen hnone
      exact ⟨by rw [hn]; rfl, id, .handling, hid, rfl⟩
    rcases hmoves.cut (h.kept hpool) hr hr' hcut hcutoff with
      ⟨e, rfl, hterminates, hlive, rfl⟩ | ⟨worker, rfl, rfl⟩
    · refine ⟨?_, hplace rfl⟩
      have hbefore : n ∉ s.ended := by
        intro hended
        obtain ⟨pool₀, hpool₀, hterminated⟩ := h.ended hended
        cases hpool.symm.trans hpool₀
        cases hlive.symm.trans hterminated
      have hends : n ∈ s.ends e := by
        rcases H.ended_cases with hsame | ⟨e', heq, happend⟩
        · exact absurd (hsame ▸ hended) hbefore
        · cases heq
          exact (List.mem_append.mp (happend ▸ hended)).resolve_left hbefore
      simp [State.interrupts, hrun₀, hends]
    · refine ⟨?_, hplace rfl⟩
      simp [State.interrupts, hrun₀, hbefore nofun]
  rcases H.runs_cases with hsame | ⟨env, tag', m, rfl, hm, hpools, hset⟩
  · exact hold (hsame ▸ htag) (by rw [hsame])
  · by_cases heq : tag = tag'
    · subst heq
      obtain ⟨d, X, hd, -⟩ := poolOf_eq_some.mp hm
      cases hn'.symm.trans ((h.poolOf_kept H (OrderedMap.mem_of_get? hd)).trans hm)
      obtain ⟨id, hplace⟩ := (h.decoded H hm).1
      refine ⟨?_, by rw [hm]; rfl, id, .decoding, hplace, rfl⟩
      simp [State.interrupts, hm, hbefore nofun]
    · have hruns : t.runs.get? tag = s.runs.get? tag := by
        rw [hset, OrderedMap.get?_set, if_neg heq]
      refine hold ?_ hruns
      obtain ⟨i, hi⟩ := OrderedMap.mem_iff.mp htag
      exact OrderedMap.mem_of_get? (hruns.symm.trans hi)

/-- A step interrupts deliveries that are in their handlers, or about to call them. -/
theorem Sound.interrupted (h : Sound config options s)
    (H : Steps config options drainTimeout s event t) (htag : tag ∈ t.interrupted) :
    tag ∈ s.interrupted ∨ tag ∈ s.pipeline.deliveries ∧ s.interrupts tag event ∧
      (s.poolOf tag).isSome ∧
        ∃ id stage, s.pipeline.place? tag = some (id, stage) ∧ stage.waits := by
  have hnoted : tag ∈ s.interrupted ∨ tag ∈ t.runs ∧ ∃ n run, t.runOf tag = some (n, run) ∧
      n ∈ t.ended ∧ cutShort run ∧ s.cutOff tag = false := by
    cases H with
    | parallel | consuming | pool => exact mem_noted.mp htag
    | handled => exact .inl htag
  refine hnoted.imp_right ?_
  rintro ⟨hruns, n, run, hrun, hended, hcut, hnot⟩
  obtain ⟨hinterrupts, hpool, id, stage, hplace, hwaits⟩ :=
    h.cut H hruns hrun hended hcut hnot
  obtain ⟨n', hn'⟩ := Option.isSome_iff_exists.mp hpool
  obtain ⟨d, X, hd, -⟩ := poolOf_eq_some.mp hn'
  exact ⟨OrderedMap.mem_of_get? hd, hinterrupts, hpool, id, stage, hplace, hwaits⟩

/-! ## Runs that spare what they interrupt -/

/-- The pipeline has not settled a delivery whose handler runs on a pool. -/
theorem Sound.shielded (h : Sound config options s) (hpool : (s.poolOf tag).isSome) {id : Nat}
    {stage : ConsumePipeline.Stage} (hplace : s.pipeline.place? tag = some (id, stage))
    (hwaits : stage.waits) (hspared : s.spared tag) : s.pipeline.Shielded tag := by
  obtain ⟨n, hn⟩ := Option.isSome_iff_exists.mp hpool
  obtain ⟨-, d, sub, hl, hplain⟩ := h.plain hn
  have hd := (ConsumePipeline.lookup_eq_some.mp hl).1
  cases (ConsumePipeline.place?_of_get? hd).symm.trans hplace
  refine ⟨d, sub, hl, ?_,
    ConsumePipeline.unsettled h.consistent.pipeline tag d sub hl hplain hwaits⟩
  simpa [State.spared, hl] using hspared

theorem Sound.shielded_kept (h : Sound config options s)
    (H : Steps config options drainTimeout s event t) (hs : s.pipeline.Shielded tag) :
    t.pipeline.Shielded tag := by
  rcases H.consuming_cases with hsame | ⟨e, hsteps⟩
  · rw [State.pipeline, hsame]
    exact hs
  · exact hs.kept h.consistent.pipeline (h.consistent.carries hsteps).1

theorem interrupted_shielded
    (hr : Reach (step config options drainTimeout) Spares start s) :
    ∀ tag ∈ s.interrupted, s.pipeline.Shielded tag := by
  have hstart : ∀ tag ∈ (start : State α).interrupted, (start : State α).pipeline.Shielded tag :=
    fun tag htag => by cases htag
  refine hr.invariant_of (I := Sound config options)
    (J := fun s => ∀ tag ∈ s.interrupted, s.pipeline.Shielded tag) (fun hr => sound hr) hstart ?_
  intro s t event h _ hshielded hok hs tag htag
  have H := step_cases hs
  refine h.shielded_kept H ?_
  rcases h.interrupted H htag with hold | ⟨hmem, hinterrupts, hpool, id, stage, hplace, hwaits⟩
  · exact hshielded tag hold
  · exact h.shielded hpool hplace hwaits (hok tag hmem hinterrupts)

/-- `disconnect` settles no work that it interrupted itself, in a run whose shutdowns interrupt only
deliveries that have nothing to acknowledge. -/
theorem interrupted_unsettled
    (hr : Reach (step config options drainTimeout) Spares start s) : HandsBack s := by
  have hpipeline := (sound hr).consistent.pipeline
  intro f hf horigin
  refine ⟨(ConsumePipeline.resulted hpipeline).settled f hf horigin, fun htag => ?_⟩
  obtain ⟨d, sub, hl, -, happlication⟩ := interrupted_shielded hr f.tag htag
  have hf' : f ∈ s.pipeline.settlementsOf f.tag :=
    List.mem_filter.mpr ⟨hf, decide_eq_true rfl⟩
  cases horigin.symm.trans (happlication f hf')

/-! ## Runs -/

private abbrev neverRetried : Nat → Consuming.Options := fun _ => ⟨.none, none⟩

private abbrev single : Nat → WorkerPool.Config := fun _ => WorkerPool.oneWorker

/-- The worker of a pool is at the delivery that the consume gave to its handler. -/
private def onWorker (consume tag pool : Nat) : List (Event String) :=
  [.consuming (.deliver Consuming.quietEnv consume { tag, messageId := some "order" }),
    .consuming (.pipeline Consuming.quietEnv (.decoded tag)), .pool pool (.resumes 0)]

/-- The pools are terminated, and the worker of one exits under its delivery. -/
private def interrupting (tag pool : Nat) : List (Event String) :=
  [.parallel .disposeAll, .pool pool (.exit 0), .pool pool (.resumes 0),
    .handled Consuming.quietEnv tag none, .consuming (.pipeline Consuming.quietEnv (.caught tag))]

/-- One delivery is acknowledged with the answer of its worker, and another, which needs no
acknowledgement, is interrupted. -/
theorem interrupted_unsettled_run : ∃ s : State String,
    Reach (step single neverRetried 30000) Spares start s ∧ HandsBack s ∧
      s.pipeline.settlements = [⟨0, 1, .ack, .pipeline⟩] ∧ s.interrupted = [2] := by
  have hrun : (run (step single neverRetried 30000) Spares start
      (SubscribeParallel.subscribes.map .parallel ++ [.subscribeParallel true,
        .manager (.channelOpened 1), .manager (.setupContinues 1), .manager (.consumeOk 1 8),
        .manager (.setupCompletes 1), .registers 1].map .parallel ++ onWorker 0 1 0 ++
      [.pool 0 (.answers 0), .pool 0 (.message 0), .pool 0 (.resumes 0),
        .handled Consuming.quietEnv 1 none] ++ onWorker 1 2 1 ++ interrupting 2 1)).any (fun s =>
      decide (s.pipeline.settlements = [⟨0, 1, .ack, .pipeline⟩] ∧ s.interrupted = [2])) := by
    decide +kernel
  obtain ⟨s, hs, h⟩ := (Option.any_eq_true _ _).mp hrun
  obtain ⟨hsettlements, hinterrupted⟩ := of_decide_eq_true h
  exact ⟨s, reach_of_run hs, interrupted_unsettled (reach_of_run hs), hsettlements, hinterrupted⟩

/-- A delivery is on the worker when its pool is terminated, and the next comes after that: both go
to the dead letters. -/
theorem interrupted_dead_lettered : ∃ s : State String,
    Reach (step single neverRetried 30000) anyStep start s ∧ ¬ HandsBack s ∧
      s.pipeline.settlements =
        [⟨0, 1, .nack false, .pipeline⟩, ⟨0, 2, .nack false, .pipeline⟩] ∧
      s.interrupted = [1, 2] := by
  have hrun : (run (step single neverRetried 30000) anyStep start
      (SubscribeParallel.subscribes.map .parallel ++ onWorker 0 1 0 ++ interrupting 1 0 ++
      [.consuming (.deliver Consuming.quietEnv 0 { tag := 2, messageId := some "item" }),
        .consuming (.pipeline Consuming.quietEnv (.decoded 2)),
        .handled Consuming.quietEnv 2 none,
        .consuming (.pipeline Consuming.quietEnv (.caught 2))])).any (fun s =>
      decide (s.pipeline.settlements =
        [⟨0, 1, .nack false, .pipeline⟩, ⟨0, 2, .nack false, .pipeline⟩] ∧
        s.interrupted = [1, 2])) := by
    decide +kernel
  obtain ⟨s, hs, h⟩ := (Option.any_eq_true _ _).mp hrun
  obtain ⟨hsettlements, hinterrupted⟩ := of_decide_eq_true h
  refine ⟨s, reach_of_run hs, fun hback => ?_, hsettlements, hinterrupted⟩
  have hf : ⟨0, 1, .nack false, .pipeline⟩ ∈ s.pipeline.settlements :=
    hsettlements ▸ List.mem_cons_self
  exact (hback _ hf rfl).2 (hinterrupted ▸ List.mem_cons_self)

end Shutdown
end RabbitMQ
