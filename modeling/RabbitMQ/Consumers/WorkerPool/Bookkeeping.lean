import RabbitMQ.Consumers.WorkerPool.Workers
import RabbitMQ.Lib.Update

/-! The books of a pool: who has which worker, how often each worker was spawned, and what each
call of `run` gets. -/

namespace RabbitMQ
namespace WorkerPool

open Transition

variable {c : Config} {s s' : State}

/-- No payload is posted to a worker while a message of it is under way. -/
def Fresh (s : State) : Event → Prop
  | .resumes run => ∀ worker, s.runs[run]? = some (.acquired worker) →
      ∀ t ∈ s.threads[worker]?, t.outbox = []
  | _ => True

instance (s : State) (event : Event) : Decidable (Fresh s event) := by
  unfold Fresh
  split
  · next run =>
    cases hrun : s.runs[run]? with
    | none => exact .isTrue nofun
    | some r =>
      cases r with
      | acquired worker =>
        refine decidable_of_iff (∀ t ∈ s.threads[worker]?, t.outbox = []) ?_
        exact ⟨fun h w hw => by cases hw; exact h, fun h => h worker rfl⟩
      | waiting => exact .isTrue nofun
      | inFlight => exact .isTrue nofun
      | releasing => exact .isTrue nofun
      | settled => exact .isTrue nofun
  · infer_instance

/-- How often a worker was spawned. -/
def State.spawns (s : State) (workerId : Nat) : Nat :=
  (s.threads.map (·.workerId)).count workerId

/-- The books of a pool are right. -/
structure Bookkept (c : Config) (s : State) : Prop where
  /-- no worker has two payloads -/
  single : ∀ run run' worker : Nat, s.runs[run]? = some (.inFlight worker) →
    s.runs[run']? = some (.inFlight worker) → run = run'
  idle : s.idleWorkers.Nodup ∧ ∀ worker ∈ s.idleWorkers, worker ∈ s.workers ∧
    ∀ run : Nat, s.runs[run]? ≠ some (.inFlight worker)
  waiters : s.waiters ≠ [] → s.idleWorkers = [] ∧ s.workers ≠ []
  /-- the calls that wait are in order, and no later call has overtaken one of them -/
  fifo : s.waiters.Pairwise (· < ·) ∧
    ∀ run ∈ s.waiters, ∀ later, run < later → later < s.runs.length → later ∈ s.waiters
  oneLive : ∀ (worker worker' : Nat) (t t' : Thread), s.threads[worker]? = some t →
    s.threads[worker']? = some t' → t.live → t'.live → t.workerId = t'.workerId → worker = worker'
  spawned : ∀ workerId, s.spawns workerId ≤ 1 + c.maxRespawns
  /-- each call waits, has a worker that has not exited, or has its one result -/
  runs : ∀ (run : Nat) (r : Run), s.runs[run]? = some r → r = .waiting ∧ run ∈ s.waiters ∨
    (∃ worker, r = .acquired worker ∧ s.live worker) ∨
    (∃ worker, r = .inFlight worker ∧ s.live worker) ∨ ∃ result, r.result = some result
  once : ∀ event s', step c s event = some s' → ∀ (run : Nat) (r : Run) (result : RunResult),
    s.runs[run]? = some r → r.result = some result → ∃ r', s'.runs[run]? = some r' ∧ r'.result = some result
  /-- what it resolves with was sent after its payload was posted -/
  resolved : ∀ (run : Nat) (r : Run) (message : Message), s.runs[run]? = some r → r.result = some (.resolved message) →
    run ∈ message.heard

/-! ## The constructor -/

theorem spawn_idle (h : s.waiters = []) (workerId : Nat) : s.spawn workerId = { s with
    threads := s.threads ++ [Thread.fresh workerId]
    workers := s.workers ++ [s.threads.length]
    idleWorkers := s.idleWorkers ++ [s.threads.length] } := by
  unfold State.spawn State.release
  dsimp only
  rw [if_neg (by simp), h]

theorem spawn_all (ids : List Nat) (h : s.waiters = []) :
    (ids.foldl State.spawn s).waiters = [] ∧ (ids.foldl State.spawn s).runs = s.runs ∧
      (ids.foldl State.spawn s).respawnCounts = s.respawnCounts ∧
      (ids.foldl State.spawn s).threads = s.threads ++ ids.map Thread.fresh := by
  induction ids generalizing s with
  | nil => exact ⟨h, rfl, rfl, (List.append_nil _).symm⟩
  | cons id ids ih =>
    have heq := spawn_idle h id
    obtain ⟨hwaiters, hruns, hcounts, hthreads⟩ := ih (by rw [heq]; exact h : (s.spawn id).waiters = [])
    rw [List.foldl_cons]
    refine ⟨hwaiters, ?_, ?_, ?_⟩
    · rw [hruns, heq]
    · rw [hcounts, heq]
    · rw [hthreads, heq, List.append_assoc]
      rfl

theorem kept_spawn_all (ids : List Nat) (h : Kept s) (hwaiters : s.waiters = []) (hids : ids.Nodup)
    (hno : ∀ t ∈ s.threads, t.workerId ∉ ids) : Kept (ids.foldl State.spawn s) := by
  induction ids generalizing s with
  | nil => exact h
  | cons id ids ih =>
    obtain ⟨hid, hids⟩ := List.nodup_cons.mp hids
    have heq := spawn_idle hwaiters id
    have hk : Kept (s.spawn id) := h.spawn fun w t ht _ hsame =>
      hno t (List.mem_of_getElem? ht) (hsame ▸ List.mem_cons_self)
    refine ih hk (by rw [heq]; exact hwaiters) hids fun t ht hmem => ?_
    rw [heq] at ht
    rcases List.mem_append.mp ht with ht | ht
    · exact hno t ht (List.mem_cons_of_mem _ hmem)
    · rw [List.mem_singleton.mp ht] at hmem
      exact hid hmem

theorem start_frame (c : Config) : (start c).waiters = [] ∧ (start c).runs = [] ∧
    (start c).respawnCounts = .empty ∧
    (start c).threads = (List.range c.workerCount).map Thread.fresh := by
  obtain ⟨hwaiters, hruns, hcounts, hthreads⟩ :=
    spawn_all (List.range c.workerCount) (rfl : empty.waiters = [])
  exact ⟨hwaiters, hruns, hcounts, hthreads⟩

theorem kept_start (c : Config) : Kept (start c) ∧ (start c).Staffed :=
  ⟨kept_spawn_all _ kept_empty rfl List.nodup_range nofun,
    fun hne => absurd (start_frame c).1 hne⟩

/-! ## The budget -/

/-- A worker is spawned once, and once for each respawn that was counted. -/
structure Budget (c : Config) (s : State) : Prop where
  spent : ∀ workerId, s.spawns workerId ≤ 1 + s.respawns workerId
  bound : ∀ workerId, s.respawns workerId ≤ c.maxRespawns

theorem Budget.spawned (h : Budget c s) (workerId : Nat) :
    s.spawns workerId ≤ 1 + c.maxRespawns :=
  Nat.le_trans (h.spent workerId) (Nat.add_le_add_left (h.bound workerId) 1)

theorem budget_start (c : Config) : Budget c (start c) := by
  obtain ⟨-, -, hcounts, hthreads⟩ := start_frame c
  have hzero : ∀ workerId, (start c).respawns workerId = 0 := fun workerId => by
    rw [State.respawns, hcounts]
    rfl
  refine ⟨fun workerId => ?_, fun workerId => ?_⟩
  · have hids : (start c).threads.map (·.workerId) = List.range c.workerCount := by
      simp [hthreads, Thread.fresh, Function.comp_def]
    rw [State.spawns, hids, hzero]
    exact List.nodup_iff_count_le_one.mp List.nodup_range workerId
  · rw [hzero]
    exact Nat.zero_le _

theorem Budget.same (h : Budget c s)
    (hids : s'.threads.map (·.workerId) = s.threads.map (·.workerId))
    (hcounts : s'.respawnCounts = s.respawnCounts) : Budget c s' := by
  have hrespawns : ∀ workerId, s'.respawns workerId = s.respawns workerId := fun _ => by
    rw [State.respawns, State.respawns, hcounts]
  refine ⟨fun workerId => ?_, fun workerId => hrespawns workerId ▸ h.bound workerId⟩
  rw [State.spawns, hids, hrespawns]
  exact h.spent workerId

theorem release_threads (s : State) (worker : Nat) :
    (s.release worker).threads = s.threads ∧ (s.release worker).respawnCounts = s.respawnCounts := by
  unfold State.release
  split
  · exact ⟨rfl, rfl⟩
  · split
    · exact ⟨rfl, rfl⟩
    · exact ⟨rfl, rfl⟩

theorem ids_set {worker : Nat} {t t₀ : Thread} (ht : s.threads[worker]? = some t)
    (hid : t₀.workerId = t.workerId) :
    (s.threads.set worker t₀).map (·.workerId) = s.threads.map (·.workerId) := by
  obtain ⟨hlt, rfl⟩ := List.getElem?_eq_some_iff.mp ht
  have hlt' : worker < (s.threads.map (·.workerId)).length := by simpa using hlt
  have hsame : s.threads[worker].workerId = (s.threads.map (·.workerId))[worker] := by simp
  rw [List.map_set, hid, hsame, List.set_getElem_self]

/-- A respawn is spawned only within the budget, and is counted. -/
theorem Budget.respawn (h : Budget c s) (workerId : Nat) : Budget c (s.respawn c workerId) := by
  unfold State.respawn
  split
  · exact h
  · split
    · next hless =>
      generalize hs₁ : ({ s with
        respawnCounts := s.respawnCounts.set workerId (s.respawns workerId + 1) } : State) = s₁
      have hthreads : (s₁.spawn workerId).threads = s.threads ++ [Thread.fresh workerId] := by
        refine (release_threads _ _).1.trans ?_
        rw [← hs₁]
      have hcounts : (s₁.spawn workerId).respawnCounts =
          s.respawnCounts.set workerId (s.respawns workerId + 1) := by
        refine (release_threads _ _).2.trans ?_
        rw [← hs₁]
      have hrespawns : ∀ id, (s₁.spawn workerId).respawns id =
          if id = workerId then s.respawns workerId + 1 else s.respawns id := fun id => by
        rw [State.respawns, hcounts, OrderedMap.get?_set]
        split <;> rfl
      have hspawns : ∀ id, (s₁.spawn workerId).spawns id =
          s.spawns id + if workerId = id then 1 else 0 := fun id => by
        rw [State.spawns, hthreads, List.map_append, List.count_append]
        simp [State.spawns, Thread.fresh, List.count_singleton]
      refine ⟨fun id => ?_, fun id => ?_⟩
      · have := h.spent id
        rw [hspawns, hrespawns]
        by_cases hid : id = workerId
        · subst hid
          simp only [if_true]
          omega
        · rw [if_neg (Ne.symm hid), if_neg hid]
          exact this
      · rw [hrespawns]
        split
        · exact hless
        · exact h.bound id
    · split
      · exact h.same rfl rfl
      · exact h

theorem run_threads (s : State) : s.run.threads = s.threads ∧
    s.run.respawnCounts = s.respawnCounts := by
  unfold State.run
  split
  · exact ⟨rfl, rfl⟩
  · split
    · exact ⟨rfl, rfl⟩
    · dsimp only
      split
      · exact ⟨rfl, rfl⟩
      · exact ⟨rfl, rfl⟩

theorem Steps.budget {event : Event} (H : Steps c s event s') (h : Budget c s) : Budget c s' := by
  cases H with
  | run => exact h.same (by rw [(run_threads s).1]) (run_threads s).2
  | @posts run worker hrun =>
    refine h.same ?_ rfl
    cases ht : s.threads[worker]? with
    | none => simp only [State.post, List.modify_eq_set_getElem?, ht]; rfl
    | some t =>
      simp only [State.post, List.modify_eq_set_getElem?, ht]
      exact ids_set ht rfl
  | finishes => exact h.same (by rw [State.finish, (release_threads _ _).1]) (release_threads _ _).2
  | postThrows => exact h.same rfl rfl
  | answers ht => exact h.same (ids_set ht rfl) rfl
  | message hquiet ht => exact h.same (ids_set ht rfl) rfl
  | error => exact h.same rfl rfl
  | exit hquiet ht hlive =>
    refine Budget.respawn ?_ _
    exact h.same (ids_set ht rfl) rfl
  | terminate => exact h.same rfl rfl
  | terminateFails => exact h.same rfl rfl
  | terminateResumes => exact h.same rfl rfl

/-! ## What the calls get -/

/-- A call in flight hears only what is sent after its payload was posted. -/
structure Heard (s : State) : Prop where
  inFlight : ∀ run worker : Nat, s.runs[run]? = some (.inFlight worker) →
    ∀ t, s.threads[worker]? = some t → run ∈ t.posted ∧ ∀ m ∈ t.outbox, run ∈ m.heard
  resolved : ∀ (run : Nat) (r : Run) (message : Message), s.runs[run]? = some r →
    r.result = some (.resolved message) → run ∈ message.heard

/-- A call that is neither in flight nor resolved. -/
def Run.idle (r : Run) : Prop :=
  (∀ worker, r ≠ .inFlight worker) ∧ ∀ message, r.result ≠ some (.resolved message)

theorem idle_waiting : Run.waiting.idle := ⟨nofun, nofun⟩

theorem idle_acquired (worker : Nat) : (Run.acquired worker).idle := ⟨nofun, nofun⟩

theorem idle_rejected (error : RunError) : (Run.settled (.rejected error)).idle := ⟨nofun, nofun⟩

theorem idle_failing (worker : Nat) (error : RunError) :
    (Run.releasing worker (.rejected error)).idle := ⟨nofun, nofun⟩

theorem heard_start (c : Config) : Heard (start c) := by
  obtain ⟨-, hruns, -⟩ := start_frame c
  refine ⟨fun run worker hr => ?_, fun run r message hr => ?_⟩
  · simp [hruns] at hr
  · simp [hruns] at hr

theorem Heard.same (h : Heard s)
    (hruns : ∀ (run : Nat) (r : Run), s'.runs[run]? = some r → s.runs[run]? = some r ∨ r.idle)
    (hthreads : ∀ (run worker : Nat) (t' : Thread), s.runs[run]? = some (.inFlight worker) →
      s'.threads[worker]? = some t' → ∃ t, s.threads[worker]? = some t ∧ t'.posted = t.posted ∧
        t'.outbox = t.outbox) : Heard s' := by
  refine ⟨fun run worker hr t' ht' => ?_, fun run r message hr hres => ?_⟩
  · have hr := (hruns run _ hr).resolve_right fun hidle => hidle.1 worker rfl
    obtain ⟨t, ht, hposted, houtbox⟩ := hthreads run worker t' hr ht'
    rw [hposted, houtbox]
    exact h.inFlight run worker hr t ht
  · exact h.resolved run r message
      ((hruns run r hr).resolve_right fun hidle => hidle.2 message hres) hres

/-- The call that the worker goes to has it. -/
theorem release_back {worker run : Nat} {r : Run} (hr : (s.release worker).runs[run]? = some r) :
    s.runs[run]? = some r ∨ r = .acquired worker := by
  unfold State.release at hr
  split at hr
  · exact .inl hr
  · split at hr
    · rcases List.getElem?_set_cases hr with ⟨-, rfl⟩ | ⟨-, hr⟩
      · exact .inr rfl
      · exact .inl hr
    · exact .inl hr

theorem reject_back {error : RunError} {run : Nat} {r : Run}
    (hr : (s.rejectAllWaiters error).runs[run]? = some r) :
    s.runs[run]? = some r ∨ r = .settled (.rejected error) := by
  have hr := (get?_foldl_set s.waiters s.runs _ run).symm.trans hr
  split at hr
  · cases hr
    exact .inr rfl
  · exact .inl hr

theorem released_idle {worker run : Nat} {r : Run} (hr : (s.release worker).runs[run]? = some r) :
    s.runs[run]? = some r ∨ r.idle :=
  (release_back hr).imp_right fun heq : r = _ => heq ▸ idle_acquired worker

theorem rejected_idle {error : RunError} {run : Nat} {r : Run}
    (hr : (s.rejectAllWaiters error).runs[run]? = some r) : s.runs[run]? = some r ∨ r.idle :=
  (reject_back hr).imp_right fun heq : r = _ => heq ▸ idle_rejected error

theorem run_back {run : Nat} {r : Run} (hr : s.run.runs[run]? = some r) :
    s.runs[run]? = some r ∨ r.idle := by
  have hone : ∀ {r₀ : Run}, r₀.idle → (s.runs ++ [r₀])[run]? = some r →
      s.runs[run]? = some r ∨ r.idle := fun {r₀} hidle hr => by
    rcases Nat.lt_or_ge run s.runs.length with hlt | hge
    · exact .inl (by rwa [List.getElem?_append_left hlt] at hr)
    · rw [List.getElem?_append_right hge, List.getElem?_singleton] at hr
      split at hr
      · cases hr
        exact .inr hidle
      · cases hr
  unfold State.run at hr
  split at hr
  · exact hone (idle_rejected _) hr
  · split at hr
    · exact hone (idle_acquired _) hr
    · dsimp only at hr
      split at hr
      · exact hone (idle_rejected _) hr
      · exact hone idle_waiting hr

theorem Heard.post (h : Heard s) {run worker : Nat}
    (hrun : s.runs[run]? = some (.acquired worker))
    (hfresh : ∀ t ∈ s.threads[worker]?, t.outbox = []) : Heard (s.post run worker) := by
  refine ⟨fun j w hj t' ht' => ?_, fun j r message hj hres => ?_⟩
  · have hget : (s.threads.modify worker fun t => { t with posted := t.posted ++ [run] })[w]? =
        some t' := ht'
    rw [List.getElem?_modify] at hget
    have hj' : (s.runs.set run (.inFlight worker))[j]? = some (.inFlight w) := hj
    by_cases hjr : j = run
    · subst hjr
      rw [List.getElem?_set_self (List.getElem?_eq_some_iff.mp hrun).1] at hj'
      cases hj'
      obtain ⟨t, ht, rfl⟩ := Option.map_eq_some_iff.mp hget
      rw [if_pos rfl]
      refine ⟨List.mem_append_right _ (List.mem_singleton.mpr rfl), fun m hm => ?_⟩
      rw [show t.outbox = [] from hfresh t ht] at hm
      cases hm
    · rw [List.getElem?_set_ne (Ne.symm hjr)] at hj'
      obtain ⟨t, ht, rfl⟩ := Option.map_eq_some_iff.mp hget
      obtain ⟨hposted, houtbox⟩ := h.inFlight j w hj' t ht
      split
      · exact ⟨List.mem_append_left _ hposted, houtbox⟩
      · exact ⟨hposted, houtbox⟩
  · have hj' : (s.runs.set run (.inFlight worker))[j]? = some r := hj
    by_cases hjr : j = run
    · subst hjr
      rw [List.getElem?_set_self (List.getElem?_eq_some_iff.mp hrun).1] at hj'
      cases hj'
      cases hres
    · rw [List.getElem?_set_ne (Ne.symm hjr)] at hj'
      exact h.resolved j r message hj' hres

/-- What a worker emits reaches the call it has in flight. -/
theorem Heard.settleOn (h : Heard s) {worker : Nat} {result : RunResult}
    (hsent : ∀ message, result = .resolved message → ∀ run : Nat,
      s.runs[run]? = some (.inFlight worker) → run ∈ message.heard) :
    Heard (s.settleOn worker result) := by
  have hback : ∀ {run : Nat} {r' : Run}, (s.settleOn worker result).runs[run]? = some r' →
      s.runs[run]? = some r' ∨ s.runs[run]? = some (.inFlight worker) ∧
        r' = .releasing worker result := fun {run r'} hr' => by
    rw [settleOn_get] at hr'
    obtain ⟨r, hr, heq⟩ := Option.map_eq_some_iff.mp hr'
    cases r with
    | inFlight w =>
      dsimp only at heq
      split at heq
      · next hw =>
        subst hw
        exact .inr ⟨hr, heq.symm⟩
      · exact .inl (heq ▸ hr)
    | _ => exact .inl (heq ▸ hr)
  refine ⟨fun run w hr => ?_, fun run r message hr hres => ?_⟩
  · exact h.inFlight run w ((hback hr).resolve_right fun hset => nomatch hset.2)
  · rcases hback hr with hr | ⟨hin, rfl⟩
    · exact h.resolved run r message hr hres
    · exact hsent message (Option.some_inj.mp hres) run hin

theorem Heard.answer (h : Heard s) {worker run : Nat} {t : Thread}
    (ht : s.threads[worker]? = some t) : Heard (s.answer worker t run) := by
  refine ⟨fun j w hj t' ht' => ?_, h.resolved⟩
  have hget : (s.threads.set worker { t with
      answered := t.answered + 1
      outbox := t.outbox ++ [⟨run, t.posted⟩] })[w]? = some t' := ht'
  by_cases hw : w = worker
  · subst hw
    rw [List.getElem?_set_self (List.getElem?_eq_some_iff.mp ht).1] at hget
    cases hget
    obtain ⟨hposted, houtbox⟩ := h.inFlight j w hj t ht
    refine ⟨hposted, fun m hm => ?_⟩
    rcases List.mem_append.mp hm with hm | hm
    · exact houtbox m hm
    · rw [List.mem_singleton.mp hm]
      exact hposted
  · rw [List.getElem?_set_ne (Ne.symm hw)] at hget
    exact h.inFlight j w hj t' hget

theorem get_set_thread {worker w : Nat} {t t₀ t' : Thread} (ht : s.threads[worker]? = some t)
    (ht' : (s.threads.set worker t₀)[w]? = some t') :
    w = worker ∧ t' = t₀ ∨ s.threads[w]? = some t' := by
  by_cases hw : w = worker
  · subst hw
    rw [List.getElem?_set_self (List.getElem?_eq_some_iff.mp ht).1] at ht'
    cases ht'
    exact .inl ⟨rfl, rfl⟩
  · rw [List.getElem?_set_ne (Ne.symm hw)] at ht'
    exact .inr ht'

theorem Heard.message (h : Heard s) {worker : Nat} {t : Thread} {m : Message}
    {rest : List Message} (ht : s.threads[worker]? = some t) (hm : t.outbox = m :: rest) :
    Heard (s.message worker t m rest) := by
  unfold State.message
  refine Heard.settleOn ?_ fun message heq run hr => ?_
  · refine ⟨fun j w hj t' ht' => ?_, h.resolved⟩
    rcases get_set_thread ht ht' with ⟨rfl, rfl⟩ | ht'
    · obtain ⟨hposted, houtbox⟩ := h.inFlight j w hj t ht
      exact ⟨hposted, fun m' hm' => houtbox m' (hm ▸ List.mem_cons_of_mem _ hm')⟩
    · exact h.inFlight j w hj t' ht'
  · cases heq
    exact (h.inFlight run worker hr t ht).2 m (hm ▸ List.mem_cons_self)

/-- The pool's part of an exit is nothing to the calls in flight. -/
theorem Heard.respawn (h : Heard s)
    (hknown : ∀ run worker : Nat, s.runs[run]? = some (.inFlight worker) →
      worker < s.threads.length) (workerId : Nat) : Heard (s.respawn c workerId) := by
  unfold State.respawn
  split
  · exact h
  · split
    · generalize hs₁ : ({ s with
        respawnCounts := s.respawnCounts.set workerId (s.respawns workerId + 1) } : State) = s₁
      refine h.same (fun run r hr => ?_) fun run worker t' hr ht' => ?_
      · have hback := released_idle hr
        rw [← hs₁] at hback
        exact hback
      · have hthreads : (s₁.spawn workerId).threads = s.threads ++ [Thread.fresh workerId] := by
          refine (release_threads _ _).1.trans ?_
          rw [← hs₁]
        rw [hthreads, List.getElem?_append_left (hknown run worker hr)] at ht'
        exact ⟨t', ht', rfl, rfl⟩
    · split
      · exact h.same (fun run r => rejected_idle) fun run worker t' _ ht' => ⟨t', ht', rfl, rfl⟩
      · exact h

theorem Steps.heard {event : Event} (H : Steps c s event s') (hok : Fresh s event) (hk : Kept s)
    (h : Heard s) : Heard s' := by
  cases H with
  | run =>
    refine h.same (fun run r => run_back) fun run worker t' _ ht' => ?_
    rw [(run_threads s).1] at ht'
    exact ⟨t', ht', rfl, rfl⟩
  | posts hrun => exact h.post hrun (hok _ hrun)
  | @postThrows run worker hrun =>
    refine h.same (fun j r hj => ?_) fun _ _ t' _ ht' => ⟨t', ht', rfl, rfl⟩
    rcases List.getElem?_set_cases hj with ⟨-, rfl⟩ | ⟨-, hj⟩
    · exact .inr (idle_failing worker _)
    · exact .inl hj
  | @finishes run worker result hrun =>
    have hdone : Heard { s with runs := s.runs.set run (.settled result) } := by
      have hback : ∀ {j : Nat} {r' : Run}, (s.runs.set run (.settled result))[j]? = some r' →
          j = run ∧ r' = .settled result ∨ s.runs[j]? = some r' := fun {j r'} hj =>
        (List.getElem?_set_cases hj).imp (fun h => ⟨h.1.symm, h.2⟩) (·.2)
      refine ⟨fun j w hj => ?_, fun j r message hj hres => ?_⟩
      · exact h.inFlight j w ((hback hj).resolve_left fun hset => nomatch hset.2)
      · rcases hback hj with ⟨rfl, rfl⟩ | hj
        · exact h.resolved j _ message hrun hres
        · exact h.resolved j r message hj hres
    refine hdone.same (fun j r => released_idle) fun j w t' _ ht' => ?_
    rw [State.finish, (release_threads _ _).1] at ht'
    exact ⟨t', ht', rfl, rfl⟩
  | answers ht => exact h.answer ht
  | message hquiet ht hlive hm => exact h.message ht hm
  | error => exact h.settleOn nofun
  | @exit worker t hquiet ht hlive =>
    have hgone : Heard { s.settleOn worker (.rejected .exited) with
        threads := s.threads.set worker { t with live := false }
        workers := s.workers.erase worker
        idleWorkers := s.idleWorkers.erase worker } := by
      have hs : Heard (s.settleOn worker (.rejected .exited)) := h.settleOn nofun
      refine hs.same (fun _ _ => .inl) fun run w t' hr ht' => ?_
      rcases get_set_thread ht ht' with ⟨rfl, rfl⟩ | ht'
      · exact ⟨t, ht, rfl, rfl⟩
      · exact ⟨t', ht', rfl, rfl⟩
    exact hgone.respawn (fun run w hr => (hk.gone hquiet ht).known run _ w hr rfl) _
  | terminate =>
    exact h.same (fun run r => rejected_idle) fun run worker t' _ ht' => ⟨t', ht', rfl, rfl⟩
  | terminateFails => exact h.same (fun _ _ => .inl) fun _ _ t' _ ht' => ⟨t', ht', rfl, rfl⟩
  | terminateResumes => exact h.same (fun _ _ => .inl) fun _ _ t' _ ht' => ⟨t', ht', rfl, rfl⟩

/-- A call that has its result is not among those that wait for a worker. -/
theorem release_keeps (hwaiting : ∀ run ∈ s.waiters, s.runs[run]? = some .waiting) (worker : Nat)
    {run : Nat} {r : Run} {result : RunResult} (hr : s.runs[run]? = some r)
    (hres : r.result = some result) : (s.release worker).runs[run]? = some r := by
  unfold State.release
  split
  · exact hr
  · split
    · next first waiters hw =>
      have hne : run ≠ first := fun heq => by
        cases hr.symm.trans (hwaiting run (hw ▸ heq ▸ List.mem_cons_self))
        cases hres
      dsimp only
      rw [List.getElem?_set_ne (Ne.symm hne)]
      exact hr
    · exact hr

theorem reject_keeps (h : Kept s) (error : RunError) {run : Nat} {r : Run} {result : RunResult}
    (hr : s.runs[run]? = some r) (hres : r.result = some result) :
    (s.rejectAllWaiters error).runs[run]? = some r := by
  rw [rejected_get h, hr, Option.map_some, if_neg]
  rintro rfl
  cases hres

theorem settleOn_keeps (worker : Nat) (result' : RunResult) {run : Nat} {r : Run}
    {result : RunResult} (hr : s.runs[run]? = some r) (hres : r.result = some result) :
    (s.settleOn worker result').runs[run]? = some r := by
  rw [settleOn_get, hr]
  cases r with
  | inFlight => cases hres
  | _ => rfl

theorem run_keeps (s : State) {run : Nat} {r : Run} (hr : s.runs[run]? = some r) :
    s.run.runs[run]? = some r := by
  have hone : ∀ r₀ : Run, (s.runs ++ [r₀])[run]? = some r := fun r₀ => by
    rw [List.getElem?_append_left (List.getElem?_eq_some_iff.mp hr).1]
    exact hr
  unfold State.run
  split
  · exact hone _
  · split
    · exact hone _
    · dsimp only
      split
      · exact hone _
      · exact hone _

/-- A call settles once. -/
theorem Steps.once {event : Event} (H : Steps c s event s') (h : Kept s) {run : Nat} {r : Run}
    {result : RunResult} (hr : s.runs[run]? = some r) (hres : r.result = some result) :
    ∃ r', s'.runs[run]? = some r' ∧ r'.result = some result := by
  have hset : ∀ {j : Nat} {r₁ : Run} (r₀ : Run), s.runs[j]? = some r₁ →
      (r₁.result = some result → r₀.result = some result) →
      ∃ r', (s.runs.set j r₀)[run]? = some r' ∧ r'.result = some result :=
    fun {j r₁} r₀ hj hsame => by
      by_cases heq : run = j
      · subst heq
        cases hr.symm.trans hj
        exact ⟨r₀, List.getElem?_set_self (List.getElem?_eq_some_iff.mp hr).1, hsame hres⟩
      · exact ⟨r, by rw [List.getElem?_set_ne (Ne.symm heq)]; exact hr, hres⟩
  cases H with
  | run => exact ⟨r, run_keeps s hr, hres⟩
  | posts hrun | postThrows hrun => exact hset _ hrun nofun
  | @finishes j worker result' hrun =>
    obtain ⟨r', hr', hres'⟩ := hset (.settled result') hrun id
    refine ⟨r', release_keeps (fun k hk => ?_) worker hr' hres', hres'⟩
    have hwaiting := (h.waiting k).mpr hk
    dsimp only
    rw [List.getElem?_set_ne]
    · exact hwaiting
    · rintro rfl
      cases hrun.symm.trans hwaiting
  | answers => exact ⟨r, hr, hres⟩
  | message => exact ⟨r, settleOn_keeps _ _ hr hres, hres⟩
  | error => exact ⟨r, settleOn_keeps _ _ hr hres, hres⟩
  | @exit worker t hquiet ht hlive =>
    have hk := h.gone hquiet ht
    have hkept := settleOn_keeps worker (.rejected .exited) hr hres
    refine ⟨r, ?_, hres⟩
    unfold State.exit State.respawn
    dsimp only
    split
    · exact hkept
    · split
      · refine release_keeps (fun k hmem => ?_) _ hkept hres
        exact (hk.waiting k).mpr hmem
      · split
        · exact reject_keeps hk _ hkept hres
        · exact hkept
  | terminate => exact ⟨r, reject_keeps h _ hr hres, hres⟩
  | terminateFails => exact ⟨r, hr, hres⟩
  | terminateResumes => exact ⟨r, hr, hres⟩

theorem kept {ok : State → Event → Prop} (hr : Reach (step c) ok (start c) s) :
    Kept s ∧ s.Staffed :=
  hr.invariant (I := fun s => Kept s ∧ s.Staffed) (kept_start c) fun h _ hs =>
    (step_cases hs).kept h.1 h.2

theorem Kept.bookkept (h : Kept s) (hstaffed : s.Staffed) (hbudget : Budget c s)
    (hheard : Heard s) : Bookkept c s := by
  obtain ⟨first, hqueue⟩ := h.queue
  refine ⟨fun run run' worker hr hr' => h.sole run run' _ _ worker hr hr' rfl rfl,
    ⟨h.idle_nodup, fun worker hw => ⟨h.idle worker hw, fun run hr => h.free worker hw run _ hr rfl⟩⟩,
    fun hne => ⟨h.hungry hne, hstaffed hne⟩, ⟨?_, fun run hrun later hlt hlen => ?_⟩, h.oneLive,
    hbudget.spawned, fun run r hr => ?_, fun event s' hs run r result hr hres =>
      (step_cases hs).once h hr hres, hheard.resolved⟩
  · rw [hqueue]
    exact List.pairwise_lt_range'
  · rw [hqueue, List.mem_range'_1] at hrun ⊢
    omega
  · cases r with
    | waiting => exact .inl ⟨rfl, (h.waiting run).mp hr⟩
    | acquired worker => exact .inr (.inl ⟨worker, rfl, h.busy run worker (.inl hr)⟩)
    | inFlight worker => exact .inr (.inr (.inl ⟨worker, rfl, h.busy run worker (.inr hr)⟩))
    | releasing worker result => exact .inr (.inr (.inr ⟨result, rfl⟩))
    | settled result => exact .inr (.inr (.inr ⟨result, rfl⟩))

/-- The books of a pool are right in every run in which no payload is posted to a worker while a
message of it is under way. -/
theorem books_kept (hr : Reach (step c) Fresh (start c) s) : Bookkept c s := by
  have hbudget : Budget c s := hr.invariant (budget_start c) fun h _ hs => (step_cases hs).budget h
  have hheard : Heard s := hr.invariant_of (fun hr => kept hr) (heard_start c)
    fun hk _ h hok hs => (step_cases hs).heard hok hk.1 h
  exact (kept hr).1.bookkept (kept hr).2 hbudget hheard

/-! ## Runs -/

def oneWorker : Config := ⟨1, 1⟩

/-- A worker answers one call and dies on the next; a third gets the worker spawned for it. -/
theorem books_kept_run : ∃ s, Reach (step oneWorker) Fresh (start oneWorker) s ∧
    s.runs = [.settled (.resolved ⟨0, [0]⟩), .settled (.rejected .exited), .inFlight 1] ∧
      Bookkept oneWorker s := by
  have hrun : (run (step oneWorker) Fresh (start oneWorker) [.run, .run, .run, .resumes 0,
      .answers 0, .message 0, .resumes 0, .resumes 1, .exit 0, .resumes 1, .resumes 2]).any (fun s =>
        decide (s.runs =
          [.settled (.resolved ⟨0, [0]⟩), .settled (.rejected .exited), .inFlight 1])) := by
    decide +kernel
  obtain ⟨s, hs, h⟩ := (Option.any_eq_true _ _).mp hrun
  have hr := reach_of_run hs
  exact ⟨s, hr, of_decide_eq_true h, books_kept hr⟩

/-- The worker emits `'error'` while its answer is under way. It is handed to the next call, which
resolves with the answer to the payload of the first. -/
theorem resolved_with_stale_message : ∃ s, Reach (step oneWorker) anyStep (start oneWorker) s ∧
    ¬ Bookkept oneWorker s := by
  have hrun : (run (step oneWorker) anyStep (start oneWorker) [.run, .run, .resumes 0, .answers 0,
      .error 0, .resumes 0, .resumes 1, .message 0]).any (fun s =>
        decide (s.runs[1]? = some (.releasing 0 (.resolved ⟨0, [0]⟩)))) := by
    decide +kernel
  obtain ⟨s, hs, h⟩ := (Option.any_eq_true _ _).mp hrun
  refine ⟨s, reach_of_run hs, fun hbooks => ?_⟩
  have hmem := hbooks.resolved 1 _ _ (of_decide_eq_true h) rfl
  cases List.mem_singleton.mp hmem

end WorkerPool
end RabbitMQ
