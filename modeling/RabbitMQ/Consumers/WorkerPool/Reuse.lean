import RabbitMQ.Consumers.WorkerPool.Bookkeeping

/-! Payloads and dying workers. A worker that emitted `'error'` is of the pool until it emits
`'exit'`, and until then it may be given to another call. -/

namespace RabbitMQ
namespace WorkerPool

open Transition

variable {c : Config} {s s' : State}

/-- A pool, and what is known of its workers' ends. -/
structure Watched where
  pool : State
  /-- The workers that emitted `'error'`. -/
  erred : List Nat
  /-- The calls whose payload was posted to a worker that had emitted `'error'` or `'exit'`. -/
  reused : List Nat
  /-- The calls whose payload their worker had when it first emitted `'error'` or `'exit'`. -/
  struck : List Nat

namespace Watched

/-- The worker has emitted neither `'error'` nor `'exit'`. -/
def sound (w : Watched) (worker : Nat) : Bool := w.pool.live worker && !w.erred.contains worker

/-- The calls that have the worker in flight. -/
def onto (w : Watched) (worker : Nat) : List Nat :=
  (List.range w.pool.runs.length).filter fun run => w.pool.runs[run]? = some (.inFlight worker)

/-- The step is noted before it is taken. -/
def note (w : Watched) : Event → Watched
  | .resumes run =>
    match w.pool.runs[run]? with
    | some (.acquired worker) =>
      if w.sound worker then w else { w with reused := run :: w.reused }
    | _ => w
  | .error worker =>
    { w with
      erred := worker :: w.erred
      struck := if w.sound worker then w.onto worker ++ w.struck else w.struck }
  | .exit worker =>
    { w with struck := if w.sound worker then w.onto worker ++ w.struck else w.struck }
  | _ => w

end Watched

def watchedStart (c : Config) : Watched := ⟨start c, [], [], []⟩

def watched (c : Config) (w : Watched) (event : Event) : Option Watched :=
  (step c w.pool event).map fun pool => { w.note event with pool }

/-- No payload was posted to a worker that was dying or dead, and a call fails for its own worker's
end, or for the pool's. -/
structure NeverReused (w : Watched) : Prop where
  reused : w.reused = []
  failed : ∀ (run : Nat) (r : Run) (error : RunError), w.pool.runs[run]? = some r →
    r.result = some (.rejected error) →
      error = .terminated ∧ w.pool.terminated ∨ error = .allDied ∧ w.pool.workers = [] ∨
        run ∈ w.struck

/-- A worker that emitted `'error'` is not given to another call: no call waits when the pool still
has it as it is released, and none takes it while it is idle. Every payload can be cloned. -/
def GivesSound (w : Watched) : Event → Prop
  | .run => ∀ worker ∈ (w.pool.idleWorkers.dropWhile (· ∉ w.pool.workers)).head?,
      w.pool.terminated ∨ worker ∉ w.erred
  | .resumes run => ∀ worker ∈ w.pool.runs[run]?.bind Run.worker, worker ∈ w.erred →
      worker ∈ w.pool.workers → w.pool.waiters = []
  | .postThrows _ => False
  | _ => True

instance (w : Watched) (event : Event) : Decidable (GivesSound w event) :=
  match event with
  | .run | .resumes _ => by dsimp only [GivesSound]; infer_instance
  | .postThrows _ => instDecidableFalse
  | .answers _ | .message _ | .error _ | .exit _ | .terminate | .terminateFails _
  | .terminateResumes => instDecidableTrue

/-! ## Where a call comes from -/

/-- What became a call of a pool in one step. -/
inductive Comes (s s' : State) (run : Nat) : Event → Run → Prop
  | same {event r} (hr : s.runs[run]? = some r) : Comes s s' run event r
  | waits : Comes s s' run .run .waiting
  | idle {worker idleWorkers} (hopen : s.terminated = false)
      (hidle : s.idleWorkers.dropWhile (· ∉ s.workers) = worker :: idleWorkers) :
      Comes s s' run .run (.acquired worker)
  | handed {run' worker result} (hrun' : s.runs[run']? = some (.releasing worker result))
      (hmem : worker ∈ s.workers) (hwaiters : s.waiters ≠ []) :
      Comes s s' run (.resumes run') (.acquired worker)
  | spawned {worker} : Comes s s' run (.exit worker) (.acquired s.threads.length)
  | posted {worker} (hr : s.runs[run]? = some (.acquired worker)) :
      Comes s s' run (.resumes run) (.inFlight worker)
  | threw {worker} (hr : s.runs[run]? = some (.acquired worker)) :
      Comes s s' run (.postThrows run) (.releasing worker (.rejected .dataClone))
  | answered {worker m} (hr : s.runs[run]? = some (.inFlight worker)) :
      Comes s s' run (.message worker) (.releasing worker (.resolved m))
  | erred {worker} (hr : s.runs[run]? = some (.inFlight worker)) :
      Comes s s' run (.error worker) (.releasing worker (.rejected .worker))
  | exited {worker} (hr : s.runs[run]? = some (.inFlight worker)) :
      Comes s s' run (.exit worker) (.releasing worker (.rejected .exited))
  | finished {worker result} (hr : s.runs[run]? = some (.releasing worker result)) :
      Comes s s' run (.resumes run) (.settled result)
  | terminated {event} (hterminated : s'.terminated) :
      Comes s s' run event (.settled (.rejected .terminated))
  | allDied {event} (hworkers : s'.workers = []) :
      Comes s s' run event (.settled (.rejected .allDied))

/-- The call that a released worker goes to. -/
theorem handed_back {worker run : Nat} {r : Run} (hr : (s.release worker).runs[run]? = some r) :
    s.runs[run]? = some r ∨ r = .acquired worker ∧ worker ∈ s.workers ∧ s.waiters ≠ [] := by
  unfold State.release at hr
  split at hr
  · exact .inl hr
  · next hmem =>
    split at hr
    · next hwaiters =>
      rcases List.getElem?_set_cases hr with ⟨-, rfl⟩ | ⟨-, hr⟩
      · exact .inr ⟨rfl, not_not.mp hmem, hwaiters ▸ List.cons_ne_nil _ _⟩
      · exact .inl hr
    · exact .inl hr

theorem release_workers (s : State) (worker : Nat) : (s.release worker).workers = s.workers := by
  unfold State.release
  split
  · rfl
  · split <;> rfl

theorem append_back {runs : List Run} {run : Nat} {r r₀ : Run}
    (hr : (runs ++ [r₀])[run]? = some r) : runs[run]? = some r ∨ r = r₀ := by
  rcases Nat.lt_or_ge run runs.length with hlt | hge
  · exact .inl (by rwa [List.getElem?_append_left hlt] at hr)
  · rw [List.getElem?_append_right hge, List.getElem?_singleton] at hr
    split at hr
    · cases hr
      exact .inr rfl
    · cases hr

theorem run_comes {run : Nat} {r : Run} (hr : s.run.runs[run]? = some r) :
    Comes s s.run run .run r := by
  unfold State.run at hr ⊢
  split at hr
  · next hterminated =>
    rcases append_back hr with hr | rfl
    · exact .same hr
    · rw [if_pos hterminated]
      exact .terminated hterminated
  · next hopen =>
    rw [if_neg hopen]
    split at hr
    · next hidle =>
      rcases append_back hr with hr | rfl
      · exact .same hr
      · exact .idle (Bool.eq_false_iff.mpr hopen) hidle
    · dsimp only at hr
      split at hr
      · next hworkers =>
        rcases append_back hr with hr | rfl
        · exact .same hr
        · dsimp only
          rw [if_pos hworkers]
          exact .allDied hworkers
      · rcases append_back hr with hr | rfl
        · exact .same hr
        · exact .waits

/-- The calls that an event of their worker settles. -/
theorem settleOn_back {worker run : Nat} {result : RunResult} {r : Run}
    (hr : (s.settleOn worker result).runs[run]? = some r) :
    s.runs[run]? = some r ∨
      s.runs[run]? = some (.inFlight worker) ∧ r = .releasing worker result := by
  rw [settleOn_get] at hr
  obtain ⟨r₀, hr₀, rfl⟩ := Option.map_eq_some_iff.mp hr
  cases r₀ with
  | inFlight w =>
    dsimp only
    split
    · next heq =>
      subst heq
      exact .inr ⟨hr₀, rfl⟩
    · exact .inl hr₀
  | _ => exact .inl hr₀

theorem respawn_back {workerId run : Nat} {r : Run}
    (hr : (s.respawn c workerId).runs[run]? = some r) :
    s.runs[run]? = some r ∨ r = .acquired s.threads.length ∨
      r = .settled (.rejected .allDied) ∧ (s.respawn c workerId).workers = [] := by
  unfold State.respawn at hr ⊢
  split at hr
  · exact .inl hr
  · next hopen =>
    split at hr
    · exact (handed_back hr).imp_right fun h => .inl h.1
    · next hspent =>
      split at hr
      · next hworkers =>
        rw [if_neg hopen, if_neg hspent, if_pos hworkers]
        exact (reject_back hr).imp_right fun heq => .inr ⟨heq, hworkers⟩
      · exact .inl hr

theorem Steps.comes {event : Event} (H : Steps c s event s') {run : Nat} {r : Run}
    (hr : s'.runs[run]? = some r) : Comes s s' run event r := by
  cases H with
  | run => exact run_comes hr
  | posts hacquired =>
    rcases List.getElem?_set_cases hr with ⟨rfl, rfl⟩ | ⟨-, hr⟩
    · exact .posted hacquired
    · exact .same hr
  | postThrows hacquired =>
    rcases List.getElem?_set_cases hr with ⟨rfl, rfl⟩ | ⟨-, hr⟩
    · exact .threw hacquired
    · exact .same hr
  | @finishes run' worker result hreleasing =>
    rcases handed_back hr with hr | ⟨rfl, hmem, hwaiters⟩
    · rcases List.getElem?_set_cases hr with ⟨rfl, rfl⟩ | ⟨-, hr⟩
      · exact .finished hreleasing
      · exact .same hr
    · exact .handed hreleasing hmem hwaiters
  | message =>
    rcases settleOn_back hr with hr | ⟨hflight, rfl⟩
    · exact .same hr
    · exact .answered hflight
  | error =>
    rcases settleOn_back hr with hr | ⟨hflight, rfl⟩
    · exact .same hr
    · exact .erred hflight
  | @exit worker t hquiet ht hlive =>
    rcases respawn_back hr with hr | rfl | ⟨rfl, hworkers⟩
    · rcases settleOn_back hr with hr | ⟨hflight, rfl⟩
      · exact .same hr
      · exact .exited hflight
    · have hlength : (s.threads.set worker { t with live := false }).length = s.threads.length :=
        List.length_set
      dsimp only
      rw [hlength]
      exact .spawned
    · exact .allDied hworkers
  | terminate =>
    rcases reject_back hr with hr | rfl
    · exact .same hr
    · exact .terminated rfl
  | answers | terminateFails | terminateResumes => exact .same hr

/-! ## Threads -/

/-- Threads are only added, and a step ends no more than the thread of its event. -/
theorem Steps.threads_le {event : Event} (H : Steps c s event s') :
    s.threads.length ≤ s'.threads.length := by
  cases H with
  | run => exact Nat.le_of_eq (congrArg List.length (run_threads s).1).symm
  | posts => exact Nat.le_of_eq (List.length_modify ..).symm
  | @finishes run worker result =>
    have hthreads : (s.finish run worker result).threads = s.threads := by
      rw [State.finish, (release_threads _ _).1]
    exact Nat.le_of_eq (congrArg List.length hthreads).symm
  | answers | message => exact Nat.le_of_eq List.length_set.symm
  | @exit worker t =>
    have hgrows : ∀ (s : State) (workerId : Nat),
        s.threads.length ≤ (s.respawn c workerId).threads.length := by
      intro s workerId
      unfold State.respawn
      split
      · exact Nat.le_refl _
      · split
        · refine Nat.le_trans ?_ (Nat.le_of_eq (congrArg List.length (release_threads _ _).1).symm)
          rw [List.length_append]
          exact Nat.le_succ _
        · split <;> exact Nat.le_refl _
    refine Nat.le_trans (Nat.le_of_eq ?_) (hgrows _ _)
    exact List.length_set.symm
  | postThrows | error | terminate | terminateFails | terminateResumes => exact Nat.le_refl _

theorem run_workers (s : State) :
    s.run.workers = s.workers ∧ s.run.terminated = s.terminated := by
  unfold State.run
  split
  · exact ⟨rfl, rfl⟩
  · split
    · exact ⟨rfl, rfl⟩
    · dsimp only
      split <;> exact ⟨rfl, rfl⟩

/-- The workers of a pool change only as one exits, and when the pool is terminated. -/
theorem Steps.roster {event : Event} (H : Steps c s event s')
    (hevent : ∀ worker, event ≠ .exit worker) :
    (s'.workers = s.workers ∨ s'.workers = [] ∧ s.terminating.isSome) ∧
      (s.terminated → s'.terminated) ∧ ∀ worker, s'.live worker = s.live worker := by
  have hterminated : s.terminated → s'.terminated := H.terminated
  refine ⟨?_, hterminated, ?_⟩
  · cases H with
    | run => exact .inl (run_workers s).1
    | finishes => exact .inl (release_workers _ _)
    | exit => exact absurd rfl (hevent _)
    | terminateResumes hterminating => exact .inr ⟨rfl, hterminating ▸ rfl⟩
    | _ => exact .inl rfl
  · cases H with
    | run => exact live_of_census (by rw [State.census, (run_threads s).1, State.census])
    | @posts run worker hrun =>
      intro w
      refine live_of_census ?_ w
      cases ht : s.threads[worker]? with
      | none => simp only [State.census, State.post, List.modify_eq_set_getElem?, ht]; rfl
      | some t =>
        simp only [State.post, List.modify_eq_set_getElem?, ht]
        exact census_set ht rfl rfl
    | finishes => exact live_of_census (by rw [State.census, State.finish, (release_threads _ _).1,
        State.census])
    | answers ht => exact live_of_census (census_set ht rfl rfl)
    | message _ ht => exact live_of_census (census_set ht rfl rfl)
    | exit => exact absurd rfl (hevent _)
    | _ => exact fun _ => rfl

/-- A pool that is not terminated has every live worker. -/
def State.Listed (s : State) : Prop :=
  s.terminated = false → ∀ worker, s.live worker → worker ∈ s.workers

theorem respawn_roster (c : Config) (s : State) (workerId : Nat) :
    (s.respawn c workerId).terminated = s.terminated ∧
      ((s.respawn c workerId).workers = s.workers ∧
          (s.respawn c workerId).threads = s.threads ∨
        s.terminated = false ∧ (s.respawn c workerId).workers = s.workers ++ [s.threads.length] ∧
          (s.respawn c workerId).threads = s.threads ++ [Thread.fresh workerId]) := by
  unfold State.respawn
  split
  · exact ⟨rfl, .inl ⟨rfl, rfl⟩⟩
  · next hopen =>
    split
    · refine ⟨release_terminated .., .inr ⟨Bool.eq_false_iff.mpr hopen, ?_, ?_⟩⟩
      · exact release_workers ..
      · exact (release_threads ..).1
    · split
      · exact ⟨rfl, .inl ⟨rfl, rfl⟩⟩
      · exact ⟨rfl, .inl ⟨rfl, rfl⟩⟩

theorem listed_spawned {workerId : Nat} (hworkers : s'.workers = s.workers ++ [s.threads.length])
    (hthreads : s'.threads = s.threads ++ [Thread.fresh workerId])
    (h : ∀ worker, s.live worker → worker ∈ s.workers) :
    ∀ worker, s'.live worker → worker ∈ s'.workers := by
  intro worker hlive
  rw [State.live, hthreads] at hlive
  rw [hworkers]
  rcases Nat.lt_or_ge worker s.threads.length with hlt | hge
  · rw [List.getElem?_append_left hlt] at hlive
    exact List.mem_append_left _ (h worker hlive)
  · rw [List.getElem?_append_right hge, List.getElem?_singleton] at hlive
    split at hlive
    · exact List.mem_append_right _ (List.mem_singleton.mpr (by omega))
    · cases hlive

theorem listed_start (c : Config) : (start c).Listed := by
  have hall : ∀ (ids : List Nat) (s : State), s.waiters = [] →
      (∀ worker, s.live worker → worker ∈ s.workers) →
        ∀ worker, (ids.foldl State.spawn s).live worker →
          worker ∈ (ids.foldl State.spawn s).workers := by
    intro ids
    induction ids with
    | nil => exact fun s _ h => h
    | cons id ids ih =>
      intro s hwaiters h
      have heq := spawn_idle hwaiters id
      refine ih _ (by rw [heq]; exact hwaiters) ?_
      exact listed_spawned (by rw [heq]) (by rw [heq]) h
  exact fun _ => hall _ empty rfl nofun

/-- A worker that exits leaves the pool, and may be spawned again. -/
theorem exit_listed (h : s.Listed) {worker : Nat} {t : Thread}
    (ht : s.threads[worker]? = some t) : (s.exit c worker t).Listed := by
  have hlt : worker < s.threads.length := (List.getElem?_eq_some_iff.mp ht).1
  have hothers : ∀ w, (s.threads.set worker { t with live := false })[w]?.any (·.live) →
      w ≠ worker ∧ s.live w := by
    intro w hlive
    by_cases hw : w = worker
    · subst hw
      rw [List.getElem?_set_self hlt] at hlive
      cases hlive
    · rw [List.getElem?_set_ne (Ne.symm hw)] at hlive
      exact ⟨hw, hlive⟩
  intro hopen w hlive
  unfold State.exit at hopen hlive ⊢
  generalize hgone : ({ s.settleOn worker (.rejected .exited) with
    threads := s.threads.set worker { t with live := false }
    workers := s.workers.erase worker
    idleWorkers := s.idleWorkers.erase worker } : State) = gone at *
  have hthreads : gone.threads = s.threads.set worker { t with live := false } := by rw [← hgone]
  have hworkers : gone.workers = s.workers.erase worker := by rw [← hgone]
  have hterminated : gone.terminated = s.terminated := by rw [← hgone]; rfl
  obtain ⟨hsame, hrest⟩ := respawn_roster c gone t.workerId
  rw [hsame, hterminated] at hopen
  have hold : ∀ w, gone.live w → w ∈ gone.workers := by
    intro w hlive
    rw [State.live, hthreads] at hlive
    obtain ⟨hne, hlive⟩ := hothers w hlive
    rw [hworkers]
    exact (List.mem_erase_of_ne hne).mpr (h hopen w hlive)
  rcases hrest with ⟨hw, ht'⟩ | ⟨-, hw, ht'⟩
  · rw [State.live, ht'] at hlive
    rw [hw]
    exact hold w hlive
  · exact listed_spawned hw ht' hold w hlive

theorem Steps.listed {event : Event} (H : Steps c s event s') (hk : Kept s) (h : s.Listed) :
    s'.Listed := by
  by_cases hexit : ∃ worker, event = .exit worker
  · obtain ⟨worker, rfl⟩ := hexit
    cases H with
    | exit _ ht => exact exit_listed h ht
  · obtain ⟨hworkers, hterminated, hlive⟩ := H.roster fun worker heq => hexit ⟨worker, heq⟩
    intro hopen worker hlive'
    have hopen' : s.terminated = false := by
      cases hs : s.terminated with
      | false => rfl
      | true => exact absurd (hterminated hs) (by rw [hopen]; decide)
    rcases hworkers with hsame | ⟨-, hterminating⟩
    · rw [hsame]
      exact h hopen' worker (hlive worker ▸ hlive')
    · exact absurd (hk.terminating hterminating) (by rw [hopen']; decide)

/-- A pool without workers stays without. -/
theorem Steps.empty {event : Event} (H : Steps c s event s') (h : s.Listed)
    (hempty : s.workers = []) : s'.workers = [] := by
  by_cases hexit : ∃ worker, event = .exit worker
  · obtain ⟨worker, rfl⟩ := hexit
    cases H with
    | @exit _ t _ ht hlive =>
      have hlive' : s.live worker := (Option.any_eq_true _ _).mpr ⟨t, ht, hlive⟩
      have hshut : s.terminated := by
        cases hs : s.terminated with
        | false =>
          have hmem := h hs worker hlive'
          rw [hempty] at hmem
          cases hmem
        | true => rfl
      unfold State.exit State.respawn
      rw [if_pos (by exact hshut)]
      dsimp only
      rw [hempty]
      rfl
  · rcases (H.roster fun worker heq => hexit ⟨worker, heq⟩).1 with hsame | ⟨hnone, -⟩
    · exact hsame.trans hempty
    · exact hnone

/-! ## Payloads -/

structure Unharmed (w : Watched) : Prop where
  erred : ∀ worker ∈ w.erred, worker < w.pool.threads.length
  held : ∀ run worker : Nat, w.pool.runs[run]? = some (.acquired worker) ∨
    w.pool.runs[run]? = some (.inFlight worker) → worker ∉ w.erred
  listed : w.pool.Listed
  never : NeverReused w

theorem unharmed_start (c : Config) : Unharmed (watchedStart c) := by
  obtain ⟨-, hruns, -⟩ := start_frame c
  have hnone : ∀ (run : Nat) (r : Run), (start c).runs[run]? ≠ some r := by
    intro run r
    rw [hruns]
    exact nofun
  refine ⟨nofun, fun run worker hr => ?_, listed_start c, rfl, fun run r error hr => ?_⟩
  · exact hr.elim (fun hr => absurd hr (hnone run _)) fun hr => absurd hr (hnone run _)
  · exact absurd hr (hnone run r)

theorem mem_onto {w : Watched} {run worker : Nat}
    (hr : w.pool.runs[run]? = some (.inFlight worker)) : run ∈ w.onto worker := by
  refine List.mem_filter.mpr ⟨List.mem_range.mpr ?_, by simpa using hr⟩
  exact (List.getElem?_eq_some_iff.mp hr).1

theorem note_struck (w : Watched) (event : Event) {run : Nat} (h : run ∈ w.struck) :
    run ∈ (w.note event).struck := by
  unfold Watched.note
  split
  · split
    · split <;> exact h
    · exact h
  · dsimp only
    split
    · exact List.mem_append_right _ h
    · exact h
  · dsimp only
    split
    · exact List.mem_append_right _ h
    · exact h
  · exact h

/-- Only `'error'` makes a worker one that erred. -/
theorem note_erred (w : Watched) (event : Event) : (w.note event).erred = w.erred ∨
    ∃ worker, event = .error worker ∧ (w.note event).erred = worker :: w.erred := by
  unfold Watched.note
  split
  · split
    · split <;> exact .inl rfl
    · exact .inl rfl
  · exact .inr ⟨_, rfl, rfl⟩
  · exact .inl rfl
  · exact .inl rfl

/-- An event of its worker leaves no call in flight on it. -/
theorem settleOn_clears (s : State) (worker run : Nat) (result : RunResult) :
    (s.settleOn worker result).runs[run]? ≠ some (.inFlight worker) := by
  intro hr
  rw [settleOn_get] at hr
  obtain ⟨r, -, heq⟩ := Option.map_eq_some_iff.mp hr
  cases r with
  | inFlight w =>
    dsimp only at heq
    split at heq
    · cases heq
    · next hne =>
      cases heq
      exact hne rfl
  | _ => cases heq

theorem Unharmed.sound {w : Watched} (h : Unharmed w) (hk : Kept w.pool) {run worker : Nat}
    (hr : w.pool.runs[run]? = some (.acquired worker) ∨
      w.pool.runs[run]? = some (.inFlight worker)) : w.sound worker := by
  have hnot := h.held run worker hr
  rw [Watched.sound, hk.busy run worker hr]
  simpa using hnot

/-- The worker that a call has after the step had not erred before it. -/
theorem Unharmed.takes {w : Watched} {event : Event} (h : Unharmed w) (hok : GivesSound w event)
    (H : Steps c w.pool event s') {run worker : Nat}
    (hr : s'.runs[run]? = some (.acquired worker) ∨ s'.runs[run]? = some (.inFlight worker)) :
    worker ∉ w.erred := by
  rcases hr with hr | hr
  · cases H.comes hr with
    | same hr => exact h.held run worker (.inl hr)
    | idle hopen hidle =>
      refine (hok worker ?_).resolve_left (by rw [hopen]; decide)
      rw [hidle]
      rfl
    | handed hrun' hmem hwaiters =>
      intro herred
      refine hwaiters (hok worker ?_ herred hmem)
      rw [hrun']
      rfl
    | spawned => exact fun herred => Nat.lt_irrefl _ (h.erred _ herred)
  · cases H.comes hr with
    | same hr => exact h.held run worker (.inr hr)
    | posted hr => exact h.held run worker (.inl hr)

theorem Unharmed.step {w w' : Watched} {event : Event} (h : Unharmed w) (hk : Kept w.pool)
    (hok : GivesSound w event) (hs : watched c w event = some w') : Unharmed w' := by
  obtain ⟨pool, hstep, rfl⟩ := Option.map_eq_some_iff.mp hs
  have H := step_cases hstep
  have herred : ∀ worker ∈ (w.note event).erred, worker ∈ w.erred ∨ event = .error worker := by
    intro worker hmem
    rcases note_erred w event with hsame | ⟨worker', rfl, hmore⟩
    · exact .inl (hsame ▸ hmem)
    · rw [hmore] at hmem
      rcases List.mem_cons.mp hmem with rfl | hmem
      · exact .inr rfl
      · exact .inl hmem
  refine ⟨fun worker hmem => ?_, fun run worker hr hmem => ?_, H.listed hk h.listed, ?_,
    fun run r error hr hresult => ?_⟩
  · rcases herred worker hmem with hmem | rfl
    · exact Nat.lt_of_lt_of_le (h.erred worker hmem) H.threads_le
    · cases H with
      | error _ hlive => exact lt_of_live hlive
  · rcases herred worker hmem with hmem | rfl
    · exact h.takes hok H hr hmem
    · cases H with
      | error hquiet =>
        rcases hr with hr | hr
        · cases settleOn_back hr with
          | inl hr => exact not_acquired_of_quiet hquiet run worker hr
          | inr hr => cases hr.2
        · exact settleOn_clears w.pool worker run _ hr
  · change (w.note event).reused = []
    unfold Watched.note
    split
    · split
      · next run worker hr =>
        rw [if_pos (h.sound hk (.inl hr))]
        exact h.never.reused
      · exact h.never.reused
    · exact h.never.reused
    · exact h.never.reused
    · exact h.never.reused
  · -- a result that was there, or that the step gives
    have hold : ∀ {r₀ : Run}, w.pool.runs[run]? = some r₀ →
        r₀.result = some (.rejected error) →
          error = .terminated ∧ pool.terminated ∨ error = .allDied ∧ pool.workers = [] ∨
            run ∈ (w.note event).struck := fun hr₀ hresult₀ =>
      (h.never.failed run _ error hr₀ hresult₀).imp (fun hshut => ⟨hshut.1, H.terminated hshut.2⟩)
        fun hrest => hrest.imp (fun hdied => ⟨hdied.1, H.empty h.listed hdied.2⟩)
          (note_struck w event)
    cases H.comes hr with
    | same hfrom => exact hold hfrom hresult
    | finished hfrom => exact hold hfrom hresult
    | terminated hterminated =>
      cases hresult
      exact .inl ⟨rfl, hterminated⟩
    | allDied hworkers =>
      cases hresult
      exact .inr (.inl ⟨rfl, hworkers⟩)
    | answered => cases hresult
    | erred hfrom =>
      refine .inr (.inr ?_)
      change run ∈ if w.sound _ then w.onto _ ++ w.struck else w.struck
      rw [if_pos (h.sound hk (.inr hfrom))]
      exact List.mem_append_left _ (mem_onto hfrom)
    | exited hfrom =>
      refine .inr (.inr ?_)
      change run ∈ if w.sound _ then w.onto _ ++ w.struck else w.struck
      rw [if_pos (h.sound hk (.inr hfrom))]
      exact List.mem_append_left _ (mem_onto hfrom)
    | threw => exact hok.elim
    | waits | idle | handed | spawned | posted => cases hresult

theorem reach_of_watched {ok : Watched → Event → Prop} {w : Watched}
    (hr : Reach (watched c) ok (watchedStart c) w) : Reach (step c) anyStep (start c) w.pool := by
  induction hr with
  | refl => exact .refl
  | tail _ _ hs ih =>
    obtain ⟨pool, hstep, rfl⟩ := Option.map_eq_some_iff.mp hs
    exact ih.tail trivial hstep

/-- A worker that emitted `'error'` is posted nothing in every run in which the pool gives it to no
other call before it exits; when payloads can be cloned, a call fails for its own worker's end or
for the pool's. -/
theorem never_reused {w : Watched} (hr : Reach (watched c) GivesSound (watchedStart c) w) :
    NeverReused w :=
  (hr.invariant_of (fun hr => kept (reach_of_watched hr)) (unharmed_start c)
    fun hk _ h hok hs => h.step hk.1 hok hs).never

/-! ## Runs -/

/-- The worker errs with nobody waiting, and exits before the next call: the one spawned for it gets
the payload. -/
theorem never_reused_run : ∃ w, Reach (watched oneWorker) GivesSound (watchedStart oneWorker) w ∧
    w.pool.runs = [.settled (.rejected .worker), .inFlight 1] ∧ w.struck = [0] ∧
      NeverReused w := by
  have hrun : (run (watched oneWorker) GivesSound (watchedStart oneWorker) [.run, .resumes 0,
      .error 0, .resumes 0, .exit 0, .run, .resumes 1]).any (fun w => decide
        (w.pool.runs = [.settled (.rejected .worker), .inFlight 1] ∧ w.struck = [0])) := by
    decide +kernel
  obtain ⟨w, hw, h⟩ := (Option.any_eq_true _ _).mp hrun
  obtain ⟨hruns, hstruck⟩ := of_decide_eq_true h
  exact ⟨w, reach_of_run hw, hruns, hstruck, never_reused (reach_of_run hw)⟩

/-- The failing call hands its dying worker to the next one, whose payload fails with it. -/
theorem posted_to_dying_worker : ∃ w, Reach (watched oneWorker) anyStep (watchedStart oneWorker) w ∧
    w.pool.runs[1]? = some (.releasing 0 (.rejected .exited)) ∧ ¬ NeverReused w := by
  have hrun : (run (watched oneWorker) anyStep (watchedStart oneWorker) [.run, .run, .resumes 0,
      .error 0, .resumes 0, .resumes 1, .exit 0]).any (fun w => decide
        (w.pool.runs[1]? = some (.releasing 0 (.rejected .exited)) ∧ w.reused = [1])) := by
    decide +kernel
  obtain ⟨w, hw, h⟩ := (Option.any_eq_true _ _).mp hrun
  obtain ⟨hfails, hreused⟩ := of_decide_eq_true h
  exact ⟨w, reach_of_run hw, hfails, fun hnever => nomatch hreused.symm.trans hnever.reused⟩

end WorkerPool
end RabbitMQ
