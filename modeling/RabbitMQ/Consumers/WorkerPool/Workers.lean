import RabbitMQ.Consumers.WorkerPool

/-! Who has which worker: an idle worker has no call, a busy one has one, and a call waits only when
no worker is idle. -/

namespace RabbitMQ
namespace WorkerPool

open Transition

variable {c : Config} {s s' : State}

/-- The worker of a call. -/
def Run.worker : Run → Option Nat
  | .acquired worker | .inFlight worker | .releasing worker _ => some worker
  | _ => none

def Run.result : Run → Option RunResult
  | .releasing _ result | .settled result => some result
  | _ => none

structure Kept (s : State) : Prop where
  idle_nodup : s.idleWorkers.Nodup
  idle : ∀ worker ∈ s.idleWorkers, worker ∈ s.workers
  nodup : s.workers.Nodup
  live : ∀ worker ∈ s.workers, s.live worker
  free : ∀ worker ∈ s.idleWorkers, ∀ (run : Nat) (r : Run), s.runs[run]? = some r →
    r.worker ≠ some worker
  sole : ∀ (run run' : Nat) (r r' : Run) (worker : Nat), s.runs[run]? = some r → s.runs[run']? = some r' →
    r.worker = some worker → r'.worker = some worker → run = run'
  busy : ∀ run worker : Nat, s.runs[run]? = some (.acquired worker) ∨
    s.runs[run]? = some (.inFlight worker) → s.live worker
  known : ∀ (run : Nat) (r : Run) (worker : Nat), s.runs[run]? = some r → r.worker = some worker →
    worker < s.threads.length
  hungry : s.waiters ≠ [] → s.idleWorkers = []
  queue : ∃ first, s.waiters = List.range' first (s.runs.length - first)
  waiting : ∀ run : Nat, s.runs[run]? = some .waiting ↔ run ∈ s.waiters
  shut : s.terminated → s.waiters = []
  terminating : s.terminating.isSome → s.terminated
  oneLive : ∀ (worker worker' : Nat) (t t' : Thread), s.threads[worker]? = some t →
    s.threads[worker']? = some t' → t.live → t'.live → t.workerId = t'.workerId → worker = worker'

/-- A call that waits waits for a worker. -/
def State.Staffed (s : State) : Prop := s.waiters ≠ [] → s.workers ≠ []

theorem kept_empty : Kept empty :=
  ⟨.nil, nofun, .nil, nofun, nofun, nofun, nofun, nofun, fun h => absurd rfl h, ⟨0, rfl⟩,
    fun _ => ⟨nofun, nofun⟩, nofun, nofun, nofun⟩

theorem lt_of_live {worker : Nat} (h : s.live worker) : worker < s.threads.length := by
  obtain ⟨t, ht, -⟩ := (Option.any_eq_true _ _).mp h
  exact (List.getElem?_eq_some_iff.mp ht).1

/-- A free worker goes to the first call that waits, or is idle. -/
theorem Kept.release (h : Kept s) {worker : Nat} (hidle : worker ∉ s.idleWorkers)
    (hfree : ∀ (run : Nat) (r : Run), s.runs[run]? = some r → r.worker ≠ some worker) :
    Kept (s.release worker) := by
  unfold State.release
  split
  · exact h
  · next hmem =>
    replace hmem : worker ∈ s.workers := by simpa using hmem
    have hlive := h.live worker hmem
    split
    · next run waiters hw =>
      obtain ⟨first, hqueue⟩ := h.queue
      have hwaiting : s.runs[run]? = some .waiting :=
        (h.waiting run).mpr (hw ▸ List.mem_cons_self)
      have hlt : run < s.runs.length := (List.getElem?_eq_some_iff.mp hwaiting).1
      have hget : ∀ j, (s.runs.set run (.acquired worker))[j]? =
          if j = run then some (.acquired worker) else s.runs[j]? := fun j => by
        by_cases hj : j = run
        · subst hj
          simp [hlt]
        · rw [List.getElem?_set_ne (Ne.symm hj), if_neg hj]
      have hsplit : run = first ∧ waiters = List.range' (first + 1) (s.runs.length - (first + 1)) ∧
          first < s.runs.length := by
        rw [hw] at hqueue
        cases hn : s.runs.length - first with
        | zero => simp [hn] at hqueue
        | succ n =>
          rw [hn, List.range'_succ, List.cons.injEq] at hqueue
          exact ⟨hqueue.1, by rw [hqueue.2]; congr 1; omega, by omega⟩
      obtain ⟨rfl, hrest, -⟩ := hsplit
      have hnotin : run ∉ waiters := fun hin => by
        rw [hrest, List.mem_range'_1] at hin
        omega
      have hidle : s.idleWorkers = [] := h.hungry (hw ▸ List.cons_ne_nil _ _)
      refine ⟨h.idle_nodup, h.idle, h.nodup, h.live, fun w hin => ?_,
        fun j j' r r' w hj hj' hr hr' => ?_, fun j w hj => ?_, fun j r w hj hr => ?_,
        fun _ => hidle, ⟨run + 1, ?_⟩, fun j => ?_, fun ht => ?_, h.terminating, h.oneLive⟩
      · rw [hidle] at hin
        cases hin
      · dsimp only at hj hj'
        rw [hget] at hj hj'
        split at hj
        · next heq =>
          cases hj
          cases hr
          split at hj'
          · next heq' => exact heq.trans heq'.symm
          · exact absurd hr' (hfree j' r' hj')
        · split at hj'
          · cases hj'
            cases hr'
            exact absurd hr (hfree j r hj)
          · exact h.sole j j' r r' w hj hj' hr hr'
      · dsimp only at hj
        rw [hget] at hj
        split at hj
        · rcases hj with hj | hj
          · cases hj
            exact hlive
          · cases hj
        · exact h.busy j w hj
      · dsimp only at hj
        rw [hget] at hj
        split at hj
        · cases hj
          cases hr
          exact lt_of_live hlive
        · exact h.known j r w hj hr
      · rw [List.length_set]
        exact hrest
      · dsimp only
        rw [hget]
        split
        · next heq =>
          subst heq
          exact iff_of_false nofun hnotin
        · next hne =>
          rw [h.waiting, hw, List.mem_cons]
          exact or_iff_right hne
      · rw [h.shut ht] at hw
        cases hw
    · next hw =>
      refine ⟨?_, fun w hin => ?_, h.nodup, h.live, fun w hin run r hr => ?_, h.sole, h.busy,
        h.known, fun hne => absurd hw hne, h.queue, h.waiting, h.shut, h.terminating, h.oneLive⟩
      · refine List.nodup_append.mpr ⟨h.idle_nodup, List.nodup_singleton _, fun a ha b hb => ?_⟩
        rw [List.mem_singleton.mp hb]
        rintro rfl
        exact hidle ha
      · rcases List.mem_append.mp hin with hin | hin
        · exact h.idle w hin
        · exact List.mem_singleton.mp hin ▸ hmem
      · rcases List.mem_append.mp hin with hin | hin
        · exact h.free w hin run r hr
        · exact List.mem_singleton.mp hin ▸ hfree run r hr

theorem release_staffed (h : s.Staffed) (worker : Nat) : (s.release worker).Staffed := by
  unfold State.release
  split
  · exact h
  · split
    · next run waiters hw => exact fun _ => h (hw ▸ List.cons_ne_nil _ _)
    · next hw => exact fun hne => absurd hw hne

/-- The threads, as far as the pool can tell them apart. -/
def State.census (s : State) : List (Nat × Bool) := s.threads.map fun t => (t.workerId, t.live)

theorem census_of_get {worker : Nat} {t : Thread} (h : s.threads[worker]? = some t) :
    s.census[worker]? = some (t.workerId, t.live) := by
  simp [State.census, h]

theorem get_of_census (h : s'.census = s.census) {worker : Nat} {t' : Thread}
    (ht' : s'.threads[worker]? = some t') : ∃ t, s.threads[worker]? = some t ∧
      t.workerId = t'.workerId ∧ t.live = t'.live := by
  have hget := census_of_get ht'
  rw [h, State.census, List.getElem?_map] at hget
  obtain ⟨t, ht, heq⟩ := Option.map_eq_some_iff.mp hget
  obtain ⟨hid, hlive⟩ := Prod.mk.inj heq
  exact ⟨t, ht, hid, hlive⟩

theorem live_of_census (h : s'.census = s.census) (worker : Nat) : s'.live worker = s.live worker := by
  have hlive : ∀ s : State, s.live worker = s.census[worker]?.any (·.2) := fun s => by
    rw [State.live, State.census, List.getElem?_map]
    cases s.threads[worker]? <;> rfl
  rw [hlive, hlive, h]

/-- What becomes of a call that gets no worker and leaves no queue. -/
structure Run.Becomes (r r' : Run) : Prop where
  worker : ∀ worker, r'.worker = some worker → r.worker = some worker
  waiting : r' = .waiting ↔ r = .waiting
  busy : ∀ worker, r' = .acquired worker ∨ r' = .inFlight worker →
    r = .acquired worker ∨ r = .inFlight worker

theorem Run.Becomes.refl (r : Run) : r.Becomes r := ⟨fun _ h => h, .rfl, fun _ h => h⟩

theorem Kept.same (h : Kept s) (hidle : s'.idleWorkers = s.idleWorkers)
    (hworkers : s'.workers = s.workers) (hwaiters : s'.waiters = s.waiters)
    (hterminated : s'.terminated = s.terminated)
    (hterminating : s'.terminating.isSome → s.terminating.isSome) (hcensus : s'.census = s.census)
    (hlength : s'.runs.length = s.runs.length)
    (hruns : ∀ (run : Nat) (r' : Run), s'.runs[run]? = some r' →
      ∃ r, s.runs[run]? = some r ∧ r.Becomes r') : Kept s' := by
  have hlive := live_of_census hcensus
  refine ⟨hidle ▸ h.idle_nodup, fun w hw => ?_, hworkers ▸ h.nodup, fun w hw => ?_,
    fun w hw run r' hr' => ?_, fun run run' r r' w hr hr' hw hw' => ?_, fun run w hr => ?_,
    fun run r' w hr' hw => ?_, fun hne => ?_, ?_, fun run => ?_, fun ht => ?_, fun ht => ?_,
    fun w w' t t' ht ht' hl hl' hid => ?_⟩
  · exact hworkers ▸ h.idle w (hidle ▸ hw)
  · exact (hlive w).trans (h.live w (hworkers ▸ hw))
  · obtain ⟨r, hr, hb⟩ := hruns run r' hr'
    exact fun hw' => h.free w (hidle ▸ hw) run r hr (hb.worker w hw')
  · obtain ⟨q, hq, hb⟩ := hruns run r hr
    obtain ⟨q', hq', hb'⟩ := hruns run' r' hr'
    exact h.sole run run' q q' w hq hq' (hb.worker w hw) (hb'.worker w hw')
  · rw [hlive]
    refine h.busy run w ?_
    rcases hr with hr | hr
    · obtain ⟨q, hq, hb⟩ := hruns run _ hr
      rcases hb.busy w (.inl rfl) with rfl | rfl
      · exact .inl hq
      · exact .inr hq
    · obtain ⟨q, hq, hb⟩ := hruns run _ hr
      rcases hb.busy w (.inr rfl) with rfl | rfl
      · exact .inl hq
      · exact .inr hq
  · obtain ⟨r, hr, hb⟩ := hruns run r' hr'
    have hlt := h.known run r w hr (hb.worker w hw)
    have hlen := congrArg List.length hcensus
    simp only [State.census, List.length_map] at hlen
    omega
  · rw [hidle]
    exact h.hungry (hwaiters ▸ hne)
  · rw [hwaiters, hlength]
    exact h.queue
  · rw [hwaiters, ← h.waiting]
    constructor
    · intro hr
      obtain ⟨q, hq, hb⟩ := hruns run _ hr
      rw [hq, hb.waiting.mp rfl]
    · intro hr
      have hlt : run < s'.runs.length := hlength ▸ (List.getElem?_eq_some_iff.mp hr).1
      obtain ⟨q, hq, hb⟩ := hruns run _ (List.getElem?_eq_getElem hlt)
      rw [List.getElem?_eq_getElem hlt]
      cases hr.symm.trans hq
      rw [hb.waiting.mpr rfl]
  · rw [hwaiters]
    exact h.shut (hterminated ▸ ht)
  · exact hterminated.trans (h.terminating (hterminating ht))
  · obtain ⟨q, hq, hid₁, hl₁⟩ := get_of_census hcensus ht
    obtain ⟨q', hq', hid₂, hl₂⟩ := get_of_census hcensus ht'
    exact h.oneLive w w' q q' hq hq' (hl₁.trans hl) (hl₂.trans hl')
      (hid₁.trans (hid.trans hid₂.symm))

theorem set_becomes {run : Nat} {r r₀ : Run} (hr : s.runs[run]? = some r) (hb : r.Becomes r₀)
    (j : Nat) (r' : Run) (hr' : (s.runs.set run r₀)[j]? = some r') :
    ∃ r, s.runs[j]? = some r ∧ r.Becomes r' := by
  by_cases hj : j = run
  · subst hj
    rw [List.getElem?_set_self (List.getElem?_eq_some_iff.mp hr).1] at hr'
    cases hr'
    exact ⟨r, hr, hb⟩
  · rw [List.getElem?_set_ne (Ne.symm hj)] at hr'
    exact ⟨r', hr', .refl r'⟩

theorem census_set {worker : Nat} {t t₀ : Thread} (ht : s.threads[worker]? = some t)
    (hid : t₀.workerId = t.workerId) (hlive : t₀.live = t.live) :
    (s.threads.set worker t₀).map (fun t => (t.workerId, t.live)) = s.census := by
  obtain ⟨hlt, rfl⟩ := List.getElem?_eq_some_iff.mp ht
  have hlt' : worker < (s.threads.map fun t => (t.workerId, t.live)).length := by simpa using hlt
  have hsame : (s.threads[worker].workerId, s.threads[worker].live) =
      (s.threads.map fun t => (t.workerId, t.live))[worker] := by simp
  rw [List.map_set, hid, hlive, hsame, List.set_getElem_self]
  rfl

theorem settleOn_get (s : State) (worker : Nat) (result : RunResult) (run : Nat) :
    (s.settleOn worker result).runs[run]? = s.runs[run]?.map fun
      | .inFlight w => if w = worker then .releasing worker result else .inFlight w
      | r => r :=
  List.getElem?_map

theorem settleOn_becomes (s : State) (worker : Nat) (result : RunResult) (run : Nat) (r' : Run)
    (hr' : (s.settleOn worker result).runs[run]? = some r') :
    ∃ r, s.runs[run]? = some r ∧ r.Becomes r' := by
  rw [settleOn_get] at hr'
  obtain ⟨r, hr, rfl⟩ := Option.map_eq_some_iff.mp hr'
  refine ⟨r, hr, ?_⟩
  cases r with
  | inFlight w =>
    dsimp only
    split
    · next heq =>
      subst heq
      exact ⟨fun _ h => h, ⟨nofun, nofun⟩, nofun⟩
    · exact .refl _
  | _ => exact .refl _

theorem Kept.settleOn (h : Kept s) (worker : Nat) (result : RunResult) :
    Kept (s.settleOn worker result) :=
  h.same rfl rfl rfl rfl id rfl (List.length_map _) (settleOn_becomes s worker result)

theorem Kept.post (h : Kept s) {run worker : Nat} (hrun : s.runs[run]? = some (.acquired worker)) :
    Kept (s.post run worker) := by
  refine h.same rfl rfl rfl rfl id ?_ List.length_set (set_becomes hrun
    ⟨fun _ h => h, ⟨nofun, nofun⟩, fun w hw => .inl ?_⟩)
  · obtain ⟨t, ht, -⟩ := (Option.any_eq_true _ _).mp (h.busy run worker (.inl hrun))
    obtain ⟨hlt, rfl⟩ := List.getElem?_eq_some_iff.mp ht
    simp only [State.census, State.post, List.modify_eq_set_getElem?, ht]
    exact census_set ht rfl rfl
  · rcases hw with hw | hw
    · cases hw
    · cases hw
      rfl

theorem Kept.postThrows (h : Kept s) {run worker : Nat}
    (hrun : s.runs[run]? = some (.acquired worker)) : Kept (s.postThrows run worker) :=
  h.same rfl rfl rfl rfl id rfl List.length_set (set_becomes hrun
    ⟨fun _ h => h, ⟨nofun, nofun⟩, nofun⟩)

theorem settled_becomes (worker : Nat) (result : RunResult) :
    (Run.releasing worker result).Becomes (.settled result) :=
  ⟨nofun, ⟨nofun, nofun⟩, fun _ hw => by rcases hw with hw | hw <;> cases hw⟩

theorem Kept.finish (h : Kept s) {run worker : Nat} {result : RunResult}
    (hrun : s.runs[run]? = some (.releasing worker result)) : Kept (s.finish run worker result) := by
  have hk : Kept { s with runs := s.runs.set run (.settled result) } :=
    h.same rfl rfl rfl rfl id rfl List.length_set
      (set_becomes hrun (settled_becomes worker result))
  refine hk.release (fun hin => h.free worker hin run _ hrun rfl) fun j r hr hw => ?_
  obtain ⟨q, hq, hb⟩ := set_becomes hrun (settled_becomes worker result) j r hr
  cases h.sole j run q _ worker hq hrun (hb.worker worker hw) rfl
  dsimp only at hr
  rw [List.getElem?_set_self (List.getElem?_eq_some_iff.mp hrun).1] at hr
  cases hr
  cases hw

/-- A worker is spawned under an id that has no live one. -/
theorem Kept.spawn (h : Kept s) {workerId : Nat}
    (hno : ∀ (worker : Nat) (t : Thread), s.threads[worker]? = some t → t.live →
      t.workerId ≠ workerId) : Kept (s.spawn workerId) := by
  have hget : ∀ w, (s.threads ++ [Thread.fresh workerId])[w]? =
      if w = s.threads.length then some (Thread.fresh workerId) else s.threads[w]? := fun w => by
    rcases Nat.lt_trichotomy w s.threads.length with hlt | rfl | hgt
    · rw [List.getElem?_append_left hlt, if_neg (by omega)]
    · rw [List.getElem?_append_right (Nat.le_refl _), if_pos rfl, Nat.sub_self]
      rfl
    · rw [if_neg (by omega), List.getElem?_eq_none (by simp; omega),
        List.getElem?_eq_none (by omega)]
  have hold : ∀ w, s.live w → (s.threads ++ [Thread.fresh workerId])[w]?.any (·.live) := fun w hw => by
    rw [hget, if_neg (Nat.ne_of_lt (lt_of_live hw))]
    exact hw
  have hk : Kept { s with
      threads := s.threads ++ [Thread.fresh workerId]
      workers := s.workers ++ [s.threads.length] } := by
    refine ⟨h.idle_nodup, fun w hw => List.mem_append_left _ (h.idle w hw), ?_, fun w hw => ?_,
      h.free, h.sole, fun run w hr => hold w (h.busy run w hr), fun run r w hr hw => ?_, h.hungry,
      h.queue, h.waiting, h.shut, h.terminating, fun w w' t t' ht ht' hl hl' hid => ?_⟩
    · refine List.nodup_append.mpr ⟨h.nodup, List.nodup_singleton _, fun a ha b hb => ?_⟩
      have := lt_of_live (h.live a ha)
      rw [List.mem_singleton.mp hb]
      omega
    · rcases List.mem_append.mp hw with hw | hw
      · exact hold w (h.live w hw)
      · rw [List.mem_singleton.mp hw]
        simp [State.live, Thread.fresh]
    · have := h.known run r w hr hw
      rw [List.length_append]
      exact Nat.lt_add_right _ this
    · dsimp only at ht ht'
      rw [hget] at ht ht'
      split at ht
      · next heq =>
        split at ht'
        · next heq' => exact heq.trans heq'.symm
        · cases ht
          exact absurd hid.symm (hno w' t' ht' hl')
      · split at ht'
        · cases ht'
          exact absurd hid (hno w t ht hl)
        · exact h.oneLive w w' t t' ht ht' hl hl' hid
  refine hk.release (fun hin => ?_) fun run r hr hw => ?_
  · exact Nat.lt_irrefl _ (lt_of_live (h.live _ (h.idle _ hin)))
  · exact Nat.lt_irrefl _ (h.known run r _ hr hw)

theorem get?_foldl_set {α : Type} (l : List Nat) (runs : List α) (a : α) (j : Nat) :
    (l.foldl (fun runs run => runs.set run a) runs)[j]? =
      if j ∈ l ∧ j < runs.length then some a else runs[j]? := by
  induction l generalizing runs with
  | nil => simp
  | cons k l ih =>
    rw [List.foldl_cons, ih, List.length_set]
    by_cases hj : j = k
    · subst hj
      by_cases hlt : j < runs.length
      · simp [hlt]
      · simp [hlt]
    · simp only [List.mem_cons, hj, false_or, List.getElem?_set_ne (Ne.symm hj)]

theorem length_foldl_set {α : Type} (l : List Nat) (runs : List α) (a : α) :
    (l.foldl (fun runs run => runs.set run a) runs).length = runs.length := by
  induction l generalizing runs with
  | nil => rfl
  | cons k l ih => rw [List.foldl_cons, ih, List.length_set]

/-- The calls that wait are rejected, each with the same error. -/
theorem rejected_get (h : Kept s) (error : RunError) (run : Nat) :
    (s.rejectAllWaiters error).runs[run]? = s.runs[run]?.map fun r =>
      if r = .waiting then .settled (.rejected error) else r := by
  refine (get?_foldl_set s.waiters s.runs _ run).trans ?_
  cases hr : s.runs[run]? with
  | none =>
    rw [if_neg]
    · rfl
    · exact fun hin => by cases hr.symm.trans ((h.waiting run).mpr hin.1)
  | some r =>
    have hlt := (List.getElem?_eq_some_iff.mp hr).1
    have hiff : r = .waiting ↔ run ∈ s.waiters := by
      rw [← h.waiting, hr, Option.some_inj]
    simp only [hlt, and_true, ← hiff, Option.map_some]
    split <;> rfl

theorem Kept.reject (h : Kept s) {error : RunError} (hidle : s'.idleWorkers = s.idleWorkers)
    (hworkers : s'.workers = s.workers) (hwaiters : s'.waiters = [])
    (hterminating : s'.terminating.isSome → s'.terminated) (hthreads : s'.threads = s.threads)
    (hruns : s'.runs = (s.rejectAllWaiters error).runs) : Kept s' := by
  have hget : ∀ run : Nat, s'.runs[run]? = s.runs[run]?.map fun r =>
      if r = .waiting then .settled (.rejected error) else r := fun run =>
    hruns ▸ rejected_get h error run
  have hkept : ∀ (run : Nat) (r' : Run), s'.runs[run]? = some r' →
      s.runs[run]? = some r' ∨ r' = .settled (.rejected error) := fun run r' hr' => by
    rw [hget] at hr'
    obtain ⟨r, hr, heq⟩ := Option.map_eq_some_iff.mp hr'
    split at heq
    · exact .inr heq.symm
    · exact .inl (heq ▸ hr)
  have hlive : ∀ w, s'.live w = s.live w := fun w => by rw [State.live, hthreads]; rfl
  refine ⟨hidle ▸ h.idle_nodup, fun w hw => hworkers ▸ h.idle w (hidle ▸ hw), hworkers ▸ h.nodup,
    fun w hw => (hlive w).trans (h.live w (hworkers ▸ hw)), fun w hw run r hr => ?_,
    fun run run' r r' w hr hr' hw hw' => ?_, fun run w hr => ?_, fun run r w hr hw => ?_,
    fun hne => absurd hwaiters hne, ⟨s'.runs.length, by simp [hwaiters]⟩, fun run => ?_,
    fun _ => hwaiters, hterminating, hthreads ▸ h.oneLive⟩
  · rcases hkept run r hr with hr | rfl
    · exact h.free w (hidle ▸ hw) run r hr
    · exact nofun
  · rcases hkept run r hr with hr | rfl
    · rcases hkept run' r' hr' with hr' | rfl
      · exact h.sole run run' r r' w hr hr' hw hw'
      · cases hw'
    · cases hw
  · rw [hlive]
    refine h.busy run w (hr.imp (fun hr => ?_) fun hr => ?_)
    · exact (hkept run _ hr).resolve_right nofun
    · exact (hkept run _ hr).resolve_right nofun
  · rw [hthreads]
    rcases hkept run r hr with hr | rfl
    · exact h.known run r w hr hw
    · cases hw
  · rw [hwaiters]
    refine iff_of_false (fun hr => ?_) nofun
    rw [hget] at hr
    obtain ⟨r, -, heq⟩ := Option.map_eq_some_iff.mp hr
    split at heq
    · cases heq
    · next hne => exact hne heq

theorem not_acquired_of_quiet (h : s.quiet) (run worker : Nat) :
    s.runs[run]? ≠ some (.acquired worker) := fun hr => by
  simpa using List.all_eq_true.mp h _ (List.mem_of_getElem? hr)

/-- A worker is gone: its call is settled, and nobody has it any more. -/
theorem Kept.gone (h : Kept s) (hquiet : s.quiet) {worker : Nat} {t : Thread}
    (ht : s.threads[worker]? = some t) : Kept { s.settleOn worker (.rejected .exited) with
      threads := s.threads.set worker { t with live := false }
      workers := s.workers.erase worker
      idleWorkers := s.idleWorkers.erase worker } := by
  have hk := h.settleOn worker (.rejected .exited)
  have hlt : worker < s.threads.length := (List.getElem?_eq_some_iff.mp ht).1
  have hother : ∀ w, w ≠ worker → s.live w →
      (s.threads.set worker { t with live := false })[w]?.any (·.live) := fun w hw hlive => by
    rw [List.getElem?_set_ne (Ne.symm hw)]
    exact hlive
  have hdead : ∀ {w : Nat} {t' : Thread},
      (s.threads.set worker { t with live := false })[w]? = some t' → t'.live →
        s.threads[w]? = some t' := fun {w t'} ht' hl => by
    by_cases hw : w = worker
    · subst hw
      rw [List.getElem?_set_self hlt] at ht'
      cases ht'
      cases hl
    · rwa [List.getElem?_set_ne (Ne.symm hw)] at ht'
  refine ⟨hk.idle_nodup.erase _, fun w hw => ?_, h.nodup.erase _, fun w hw => ?_,
    fun w hw => hk.free w (List.mem_of_mem_erase hw), hk.sole, fun run w hr => ?_,
    fun run r w hr hw => ?_, fun hne => ?_, hk.queue, hk.waiting, hk.shut, hk.terminating,
    fun w w' t₁ t₂ h₁ h₂ hl₁ hl₂ hid => h.oneLive w w' t₁ t₂ (hdead h₁ hl₁) (hdead h₂ hl₂) hl₁ hl₂ hid⟩
  · have hne : w ≠ worker := fun heq => h.idle_nodup.not_mem_erase (heq ▸ hw)
    exact (List.mem_erase_of_ne hne).mpr (h.idle w (List.mem_of_mem_erase hw))
  · have hne : w ≠ worker := fun heq => h.nodup.not_mem_erase (heq ▸ hw)
    exact hother w hne (h.live w (List.mem_of_mem_erase hw))
  · have hr' : s.runs[run]? = some (.inFlight w) ∧ w ≠ worker := by
      rcases hr with hr | hr
      · obtain ⟨r, hr₀, hb⟩ := settleOn_becomes s worker _ run _ hr
        have hr := (settleOn_get s worker (.rejected .exited) run).symm.trans hr
        rw [hr₀] at hr
        cases r with
        | acquired w' => exact absurd hr₀ (not_acquired_of_quiet hquiet run w')
        | inFlight w' =>
          simp only [Option.map_some, Option.some_inj] at hr
          split at hr <;> cases hr
        | _ => cases hr
      · have hr := (settleOn_get s worker (.rejected .exited) run).symm.trans hr
        cases hr₀ : s.runs[run]? with
        | none => simp [hr₀] at hr
        | some r =>
          rw [hr₀] at hr
          cases r with
          | inFlight w' =>
            simp only [Option.map_some, Option.some_inj] at hr
            split at hr
            · cases hr
            · next hne =>
              cases hr
              exact ⟨rfl, hne⟩
          | _ => cases hr
    exact hother w hr'.2 (h.busy run w (.inr hr'.1))
  · rw [List.length_set]
    exact hk.known run r w hr hw
  · rw [show s.idleWorkers = [] from hk.hungry hne]
    rfl

theorem Kept.exit (h : Kept s) (hquiet : s.quiet) {worker : Nat} {t : Thread}
    (ht : s.threads[worker]? = some t) (hlive : t.live) : Kept (s.exit c worker t) := by
  have hk := h.gone hquiet ht
  have hno : ∀ (w : Nat) (t' : Thread),
      (s.threads.set worker { t with live := false })[w]? = some t' → t'.live →
        t'.workerId ≠ t.workerId := fun w t' ht' hl hid => by
    by_cases hw : w = worker
    · subst hw
      rw [List.getElem?_set_self (List.getElem?_eq_some_iff.mp ht).1] at ht'
      cases ht'
      cases hl
    · rw [List.getElem?_set_ne (Ne.symm hw)] at ht'
      exact hw (h.oneLive w worker t' t ht' ht hl hlive hid)
  unfold State.exit State.respawn
  dsimp only
  split
  · exact hk
  · split
    · refine Kept.spawn ?_ hno
      exact hk.same rfl rfl rfl rfl id rfl rfl fun _ r hr => ⟨r, hr, .refl r⟩
    · split
      · exact hk.reject rfl rfl rfl hk.terminating rfl rfl
      · exact hk

theorem exit_staffed (hshut : s.terminated → s.waiters = []) (worker : Nat) (t : Thread) :
    (s.exit c worker t).Staffed := by
  unfold State.exit State.respawn
  dsimp only
  split
  · next hterminated => exact fun hne => absurd (hshut hterminated) hne
  · split
    · refine release_staffed (fun _ => ?_) _
      exact List.append_ne_nil_of_right_ne_nil _ (List.cons_ne_nil _ _)
    · split
      · exact fun hne => absurd rfl hne
      · next hworkers => exact fun _ => hworkers

/-- One more call. -/
theorem Kept.call (h : Kept s) {r : Run} {idleWorkers waiters : List Nat}
    (hidle : ∀ w ∈ idleWorkers, w ∈ s.idleWorkers) (hnodup : idleWorkers.Nodup)
    (hhungry : waiters ≠ [] → idleWorkers = [])
    (hwaiters : r = .waiting ∧ waiters = s.waiters ++ [s.runs.length] ∧ s.terminated = false ∨
      r ≠ .waiting ∧ waiters = s.waiters ∧ s.waiters = [])
    (hworker : ∀ w, r.worker = some w → r = .acquired w ∧ w ∈ s.idleWorkers ∧ w ∉ idleWorkers ∧
      s.live w) :
    Kept { s with idleWorkers, waiters, runs := s.runs ++ [r] } := by
  have hget : ∀ {j : Nat} {r' : Run}, (s.runs ++ [r])[j]? = some r' →
      s.runs[j]? = some r' ∨ j = s.runs.length ∧ r' = r := fun {j r'} hj => by
    rcases Nat.lt_or_ge j s.runs.length with hlt | hge
    · exact .inl (by rwa [List.getElem?_append_left hlt] at hj)
    · rw [List.getElem?_append_right hge, List.getElem?_singleton] at hj
      split at hj
      · next heq =>
        cases hj
        exact .inr ⟨by omega, rfl⟩
      · cases hj
  have hold : ∀ {j : Nat} {r' : Run}, s.runs[j]? = some r' → (s.runs ++ [r])[j]? = some r' :=
    fun {j r'} hj => by
      rw [List.getElem?_append_left (List.getElem?_eq_some_iff.mp hj).1]
      exact hj
  have hlast : (s.runs ++ [r])[s.runs.length]? = some r := by simp
  refine ⟨hnodup, fun w hw => h.idle w (hidle w hw), h.nodup, h.live, fun w hw j r' hj hr' => ?_,
    fun j j' q q' w hj hj' hq hq' => ?_, fun j w hj => ?_, fun j r' w hj hr' => ?_, hhungry, ?_,
    fun j => ?_, fun ht => ?_, h.terminating, h.oneLive⟩
  · rcases hget hj with hj | ⟨rfl, rfl⟩
    · exact h.free w (hidle w hw) j r' hj hr'
    · exact (hworker w hr').2.2.1 hw
  · rcases hget hj with hj₁ | ⟨rfl, rfl⟩
    · rcases hget hj' with hj₂ | ⟨rfl, rfl⟩
      · exact h.sole j j' q q' w hj₁ hj₂ hq hq'
      · exact absurd hq (h.free w (hworker w hq').2.1 j q hj₁)
    · rcases hget hj' with hj₂ | ⟨rfl, rfl⟩
      · exact absurd hq' (h.free w (hworker w hq).2.1 j' q' hj₂)
      · rfl
  · rcases hj with hj | hj
    · rcases hget hj with hj | ⟨rfl, rfl⟩
      · exact h.busy j w (.inl hj)
      · exact (hworker w rfl).2.2.2
    · rcases hget hj with hj | ⟨rfl, rfl⟩
      · exact h.busy j w (.inr hj)
      · exact (hworker w rfl).2.2.2
  · rcases hget hj with hj | ⟨rfl, rfl⟩
    · exact h.known j r' w hj hr'
    · exact lt_of_live (hworker w hr').2.2.2
  · obtain ⟨first, hqueue⟩ := h.queue
    rcases hwaiters with ⟨-, hw, -⟩ | ⟨-, hw, hnil⟩
    · dsimp only
      rw [hw, hqueue, List.length_append, List.length_singleton]
      by_cases hle : first ≤ s.runs.length
      · refine ⟨first, ?_⟩
        rw [show s.runs.length + 1 - first = (s.runs.length - first) + 1 by omega,
          List.range'_concat]
        congr 2
        omega
      · refine ⟨s.runs.length, ?_⟩
        rw [show s.runs.length - first = 0 by omega]
        simp
    · exact ⟨(s.runs ++ [r]).length, by simp [hw, hnil]⟩
  · dsimp only
    rcases hwaiters with ⟨hr, hw, -⟩ | ⟨hr, hw, -⟩
    · rw [hw, List.mem_append, List.mem_singleton, ← h.waiting]
      constructor
      · intro hj
        rcases hget hj with hj | ⟨rfl, -⟩
        · exact .inl hj
        · exact .inr rfl
      · rintro (hj | rfl)
        · exact hold hj
        · exact hr ▸ hlast
    · rw [hw, ← h.waiting]
      refine ⟨fun hj => ?_, hold⟩
      rcases hget hj with hj | ⟨rfl, heq⟩
      · exact hj
      · exact absurd heq.symm hr
  · rcases hwaiters with ⟨-, -, hnot⟩ | ⟨-, hw, hnil⟩
    · cases hnot.symm.trans ht
    · exact hw.trans hnil

theorem dropWhile_idle (h : Kept s) : s.idleWorkers.dropWhile (· ∉ s.workers) = s.idleWorkers := by
  cases hidle : s.idleWorkers with
  | nil => rfl
  | cons worker rest =>
    have hmem := h.idle worker (hidle ▸ List.mem_cons_self)
    rw [List.dropWhile_cons_of_neg (by simpa using hmem)]

theorem Kept.run (h : Kept s) (hstaffed : s.Staffed) : Kept s.run ∧ s.run.Staffed := by
  unfold State.run
  split
  · next ht =>
    have hnil := h.shut ht
    exact ⟨h.call (fun _ hw => hw) h.idle_nodup h.hungry (.inr ⟨nofun, rfl, hnil⟩) nofun, hstaffed⟩
  · next ht =>
    rw [dropWhile_idle h]
    split
    · next worker idleWorkers hidle =>
      have hnil : s.waiters = [] := Classical.byContradiction fun hne => by
        cases (h.hungry hne).symm.trans hidle
      have hnodup := h.idle_nodup
      rw [hidle, List.nodup_cons] at hnodup
      have hmem : worker ∈ s.idleWorkers := hidle ▸ List.mem_cons_self
      refine ⟨h.call (fun w hw => hidle ▸ List.mem_cons_of_mem _ hw) hnodup.2
        (fun hne => absurd hnil hne) (.inr ⟨nofun, rfl, hnil⟩) fun w hw => ?_, hstaffed⟩
      cases hw
      exact ⟨rfl, hmem, hnodup.1, h.live worker (h.idle worker hmem)⟩
    · dsimp only
      split
      · next hworkers =>
        have hnil : s.waiters = [] := Classical.byContradiction fun hne => hstaffed hne hworkers
        exact ⟨h.call nofun .nil (fun _ => rfl) (.inr ⟨nofun, rfl, hnil⟩) nofun, hstaffed⟩
      · next hworkers =>
        exact ⟨h.call nofun .nil (fun _ => rfl) (.inl ⟨rfl, rfl, by simpa using ht⟩) nofun,
          fun _ => hworkers⟩

/-- One step of the pool. -/
theorem Steps.kept {event : Event} (H : Steps c s event s') (h : Kept s) (hstaffed : s.Staffed) :
    Kept s' ∧ s'.Staffed := by
  cases H with
  | run => exact h.run hstaffed
  | posts hrun => exact ⟨h.post hrun, hstaffed⟩
  | postThrows hrun => exact ⟨h.postThrows hrun, hstaffed⟩
  | finishes hrun =>
    refine ⟨h.finish hrun, ?_⟩
    unfold State.finish
    exact release_staffed (by exact hstaffed) _
  | answers ht hlive hrun =>
    exact ⟨h.same rfl rfl rfl rfl id (census_set ht rfl rfl) rfl fun _ r hr => ⟨r, hr, .refl r⟩,
      hstaffed⟩
  | message hquiet ht hlive hm =>
    refine ⟨Kept.settleOn ?_ _ _, hstaffed⟩
    exact h.same rfl rfl rfl rfl id (census_set ht rfl rfl) rfl fun _ r hr => ⟨r, hr, .refl r⟩
  | error => exact ⟨h.settleOn _ _, hstaffed⟩
  | exit hquiet ht hlive => exact ⟨h.exit hquiet ht hlive, exit_staffed h.shut _ _⟩
  | terminate =>
    exact ⟨h.reject rfl rfl rfl (fun _ => rfl) rfl rfl, fun hne => absurd rfl hne⟩
  | terminateFails hterminating =>
    exact ⟨h.same rfl rfl rfl rfl (fun _ => by simp [hterminating]) rfl rfl
      fun _ r hr => ⟨r, hr, .refl r⟩, hstaffed⟩
  | terminateResumes hterminating hgone =>
    have hnil := h.shut (h.terminating (by simp [hterminating]))
    exact ⟨⟨.nil, nofun, .nil, nofun, nofun, h.sole, h.busy, h.known, fun _ => rfl, h.queue,
      h.waiting, h.shut, nofun, h.oneLive⟩, fun hne => absurd hnil hne⟩

/-! ## Calls stay -/

theorem release_length (s : State) (worker : Nat) :
    (s.release worker).runs.length = s.runs.length := by
  unfold State.release
  split
  · rfl
  · split
    · exact List.length_set
    · rfl

theorem run_length (s : State) : s.run.runs.length = s.runs.length + 1 := by
  unfold State.run
  split
  · exact List.length_append
  · split
    · exact List.length_append
    · dsimp only
      split <;> exact List.length_append

theorem respawn_length (s : State) (workerId : Nat) :
    (s.respawn c workerId).runs.length = s.runs.length := by
  unfold State.respawn
  split
  · rfl
  · split
    · exact release_length ..
    · split
      · exact length_foldl_set ..
      · rfl

theorem Steps.length_le {event : Event} (H : Steps c s event s') : s.runs.length ≤ s'.runs.length := by
  cases H with
  | run =>
    rw [run_length]
    exact Nat.le_succ _
  | posts | postThrows => exact Nat.le_of_eq List.length_set.symm
  | finishes => exact Nat.le_of_eq ((release_length ..).trans List.length_set).symm
  | message | error => exact Nat.le_of_eq (List.length_map _).symm
  | exit => exact Nat.le_of_eq ((respawn_length ..).trans (List.length_map _)).symm
  | terminate => exact Nat.le_of_eq (length_foldl_set ..).symm
  | answers | terminateFails | terminateResumes => exact Nat.le_refl _

theorem release_terminated (s : State) (worker : Nat) :
    (s.release worker).terminated = s.terminated := by
  unfold State.release
  split
  · rfl
  · split <;> rfl

/-- A pool stays terminated. -/
theorem Steps.terminated {event : Event} (H : Steps c s event s') (h : s.terminated) : s'.terminated := by
  cases H with
  | run =>
    unfold State.run
    rw [if_pos h]
    exact h
  | finishes => exact (release_terminated ..).trans h
  | exit =>
    have hgone : ∀ s : State, s.terminated → ∀ workerId, (s.respawn c workerId).terminated := by
      intro s h workerId
      unfold State.respawn
      rw [if_pos h]
      exact h
    unfold State.exit
    refine hgone _ ?_ _
    exact h
  | terminate => rfl
  | _ => exact h

end WorkerPool
end RabbitMQ
