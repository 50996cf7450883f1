import RabbitMQ.Consumers.SequentialProcessor.Conservation

/-! No callback starts while one of its dependency is in progress, unless the dependency has
succeeded before.

`processing` is keyed by the message id, so one entry stands for every running delivery of that
id. The invariant is about frames: a running one is covered by an entry at least as young as
itself until its id has succeeded, which keeps the sweep away from the entry while the callbacks
are timely. A failing duplicate deletes the entry all the same; the condition of the theorem
excludes it. -/

namespace RabbitMQ
namespace SequentialProcessor

open Transition

variable {α : Type} [DecidableEq α]

/-- The delivery handed over under the tag `root`, or a dependent it released, carries this id and
has been in its callback since `startTime`. -/
def RunsSince (s : State α) (id : α) (root startTime : Nat) : Prop :=
  ∃ message rest, s.calls.get? root = some (⟨message, startTime, .callback⟩ :: rest) ∧
    message.messageId = some id

def InProgress (s : State α) (id : α) (root : Nat) : Prop :=
  ∃ startTime, RunsSince s id root startTime

def Output.succeeds (id : α) : Output α → Bool
  | .onSuccess message (.ran _) => message.messageId = some id
  | _ => false

/-- A callback for a delivery with this id has returned. -/
def Succeeded (log : List (Output α)) (id : α) : Prop := ∃ out ∈ log, out.succeeds id

instance (log : List (Output α)) (id : α) : Decidable (Succeeded log id) :=
  inferInstanceAs (Decidable (∃ out ∈ log, out.succeeds id = true))

/-- No callback in progress has outlived `staleTimeout`. -/
def State.Timely (c : Config) (s : State α) : Prop :=
  ∀ root message startTime rest,
    s.calls.get? root = some (⟨message, startTime, .callback⟩ :: rest) →
      s.now - startTime ≤ c.staleTimeout

/-- An entry of `processing` at least as young as this start. -/
def Covered (s : State α) (id : α) (startTime : Nat) : Prop :=
  ∃ t, s.processing.get? id = some t ∧ startTime ≤ t

/-- What the entries of `processing` owe to a suspended call. -/
def Frame.Tracked (w : State α × List (Output α)) (frame : Frame α) : Prop :=
  match frame.stage with
  | .callback => frame.startTime ≤ w.1.now ∧ ∀ id, frame.message.messageId = some id →
      Succeeded w.2 id ∨ Covered w.1 id frame.startTime
  | .dependents _ => ∀ id, frame.message.messageId = some id → Succeeded w.2 id

/-- The invariant. -/
def Tracked (w : State α × List (Output α)) : Prop :=
  ∀ root stack, w.1.calls.get? root = some stack →
    Waiting stack ∧ ∀ frame ∈ stack, frame.Tracked w

/-- The steps the condition leaves: a callback fails only when no other delivery of its id is in
progress, and nothing is disposed while a callback runs, unless the id has succeeded before. -/
def Undisturbed (w : State α × List (Output α)) : Event α → Prop
  | .callbackRejected root _ => ∀ id, InProgress w.1 id root →
      Succeeded w.2 id ∨ ∀ r, r ≠ root → ¬ InProgress w.1 id r
  | .dispose => ∀ id root, InProgress w.1 id root → Succeeded w.2 id
  | _ => True

variable {c : Config} {h : Hooks α} {s s' : State α} {w w' : State α × List (Output α)}
  {message : Message α} {root : Nat} {frame : Frame α}

theorem Succeeded.append {log : List (Output α)} {id : α} (hs : Succeeded log id)
    (out : List (Output α)) : Succeeded (log ++ out) id := by
  obtain ⟨o, ho, hid⟩ := hs
  exact ⟨o, List.mem_append_left _ ho, hid⟩

theorem Covered.of_eq {id : α} {t : Nat} (hc : Covered s id t)
    (heq : s'.processing.get? id = s.processing.get? id) : Covered s' id t := by
  obtain ⟨t', ht, hle⟩ := hc
  exact ⟨t', heq.trans ht, hle⟩

/-- A frame stays tracked as long as its own entry stays, or its id succeeds. -/
theorem Frame.Tracked.mono (hf : frame.Tracked w) (hnow : w.1.now ≤ w'.1.now)
    (hlog : ∀ id, Succeeded w.2 id → Succeeded w'.2 id)
    (hcov : ∀ id, frame.stage = .callback → frame.message.messageId = some id →
      frame.startTime ≤ w.1.now → Covered w.1 id frame.startTime →
        Succeeded w'.2 id ∨ Covered w'.1 id frame.startTime) : frame.Tracked w' := by
  obtain ⟨message, startTime, stage⟩ := frame
  cases stage with
  | callback =>
    obtain ⟨hle, hid⟩ := hf
    refine ⟨Nat.le_trans hle hnow, fun id hm => ?_⟩
    rcases hid id hm with hs | hc
    · exact .inl (hlog id hs)
    · exact hcov id rfl hm hle hc
  | dependents ids => exact fun id hm => hlog id (hf id hm)

omit [DecidableEq α] in
theorem State.Timely.of_now_le (hnow : s.now ≤ c.staleTimeout) : s.Timely c := fun _ _ _ _ _ =>
  Nat.le_trans (Nat.sub_le _ _) hnow

/-! ## Unwinding -/

/-- What a rejection leaves of a stack: the `catch` blocks of the popped frames ran, and their ids
left `processing`. -/
structure Unwound (root : Nat) (popped kept : List (Frame α)) (s s' : State α) : Prop where
  calls : s'.calls = if kept.isEmpty then s.calls.erase root else s.calls.set root kept
  processing : ∀ id, (∀ f ∈ popped, f.message.messageId ≠ some id) →
    s'.processing.get? id = s.processing.get? id
  now : s'.now = s.now

theorem removeProcessing_get? {id : α} (s : State α) (messageId : Option α) (cause : Cause)
    (hne : messageId ≠ some id) :
    (s.removeProcessing messageId cause).1.processing.get? id = s.processing.get? id := by
  cases messageId with
  | none => rfl
  | some id' =>
    simp only [State.removeProcessing, OrderedMap.get?_erase]
    exact if_neg fun he => hne (congrArg some he.symm)

/-- One more `catch` block before the rest of the unwinding. -/
theorem Unwound.catch {popped kept : List (Frame α)} {s₁ : State α}
    (H : Unwound root popped kept s₁ s')
    (h₁ : s₁ = (s.removeProcessing frame.message.messageId .failure).1) :
    Unwound root (frame :: popped) kept s s' := by
  subst h₁
  refine ⟨?_, fun id hne => ?_, ?_⟩
  · rw [H.calls, removeProcessing_frame]
  · rw [H.processing id fun f hf => hne f (List.mem_cons_of_mem _ hf),
      removeProcessing_get? _ _ _ (hne frame List.mem_cons_self)]
  · rw [H.now, removeProcessing_frame]

theorem settle_ok_unwound (c : Config) (h : Hooks α) (root : Nat) (s : State α)
    (stack : List (Frame α)) : Unwound root [] stack s (settle c h root s (.ok ()) stack).1 := by
  rw [settle_ok_eq]
  exact ⟨rfl, fun _ _ => rfl, rfl⟩

/-- A rejection pops the frame it reaches, and those whose `catch` block throws again. -/
theorem settle_error_unwinds (c : Config) (h : Hooks α) (root : Nat) (s : State α) (error : Value)
    (frame : Frame α) (rest : List (Frame α)) :
    ∃ popped kept, popped ++ kept = rest ∧
      Unwound root (frame :: popped) kept s
        (settle c h root s (.error error) (frame :: rest)).1 := by
  induction rest generalizing s error frame with
  | nil =>
    have hcatch := processCatch_state c h s frame error
    simp only [settle]
    generalize processCatch c h s frame error = r at hcatch ⊢
    have hdone : Unwound root [] [] r.1 (settle c h root r.1 r.2.2 []).1 := by
      cases r.2.2 <;> exact ⟨rfl, fun _ _ => rfl, rfl⟩
    exact ⟨[], [], rfl, hdone.catch hcatch⟩
  | cons f rest ih =>
    have hcatch := processCatch_state c h s frame error
    rw [settle]
    generalize processCatch c h s frame error = r at hcatch ⊢
    obtain ⟨s₁, out, result⟩ := r
    cases result with
    | ok _ => exact ⟨[], f :: rest, rfl, (settle_ok_unwound c h root s₁ _).catch hcatch⟩
    | error e =>
      obtain ⟨popped, kept, hrest, hu⟩ := ih s₁ e f
      exact ⟨f :: popped, kept, congrArg _ hrest, hu.catch hcatch⟩

/-! ## Steps -/

omit [DecidableEq α] in
/-- In a well-formed stack the frame in its callback is the top one. -/
theorem runsSince_of_mem {stack : List (Frame α)} {id : α}
    (hr : s.calls.get? root = some stack) (hwait : Waiting stack) (hf : frame ∈ stack)
    (hstage : frame.stage = .callback) (hid : frame.message.messageId = some id) :
    RunsSince s id root frame.startTime := by
  cases stack with
  | nil => cases hf
  | cons top rest =>
    rcases List.mem_cons.mp hf with rfl | hf
    · obtain ⟨message, startTime, stage⟩ := frame
      cases hstage
      exact ⟨message, rest, hr, hid⟩
    · exact absurd hstage (hwait frame hf)

/-- What lies below the top frame has succeeded. -/
theorem Tracked.succeeded (hw : Tracked w) {top : Frame α} {rest : List (Frame α)}
    (hr : w.1.calls.get? root = some (top :: rest)) (hf : frame ∈ rest) {id : α}
    (hid : frame.message.messageId = some id) : Succeeded w.2 id := by
  obtain ⟨hwait, hframes⟩ := hw _ _ hr
  have hstage := hwait frame hf
  have htracked := hframes frame (List.mem_cons_of_mem _ hf)
  obtain ⟨message, startTime, stage⟩ := frame
  cases stage with
  | callback => exact absurd rfl hstage
  | dependents ids => exact htracked id hid

/-- A stack that stays is tracked on. -/
private theorem Tracked.stays {log out : List (Output α)} (hw : Tracked (s, log)) {r : Nat}
    {stack : List (Frame α)} (hr : s.calls.get? r = some stack) (hnow : s.now ≤ s'.now)
    (hcov : ∀ id t, RunsSince s id r t → t ≤ s.now → Covered s id t →
      Succeeded (log ++ out) id ∨ Covered s' id t) :
    Waiting stack ∧ ∀ frame ∈ stack, frame.Tracked (s', log ++ out) := by
  obtain ⟨hwait, hframes⟩ := hw _ _ hr
  refine ⟨hwait, fun frame hf => (hframes frame hf).mono hnow (fun id hs => hs.append out) ?_⟩
  intro id hstage hid hle hc
  exact hcov id _ (runsSince_of_mem hr hwait hf hstage hid) hle hc

/-- The obligation of a step that leaves at `root` a stack of its own. -/
private theorem Tracked.of_step {log out : List (Output α)} (hw : Tracked (s, log)) (root : Nat)
    (hcalls : ∀ r, r ≠ root → s'.calls.get? r = s.calls.get? r)
    (hroot : ∀ {stack}, s'.calls.get? root = some stack →
      Waiting stack ∧ ∀ frame ∈ stack, frame.Tracked (s', log ++ out))
    (hnow : s.now ≤ s'.now)
    (hcov : ∀ id r t, r ≠ root → RunsSince s id r t → t ≤ s.now → Covered s id t →
      Succeeded (log ++ out) id ∨ Covered s' id t) : Tracked (s', log ++ out) := by
  intro r stack hr
  by_cases h : r = root
  · subst h; exact hroot hr
  · rw [hcalls r h] at hr
    exact hw.stays hr hnow fun id t hruns hle hc => hcov id r t h hruns hle hc

/-- The same when no stack changes. -/
private theorem Tracked.keep {log out : List (Output α)} (hw : Tracked (s, log))
    (hcalls : s'.calls = s.calls) (hnow : s.now ≤ s'.now)
    (hcov : ∀ id r t, RunsSince s id r t → t ≤ s.now → Covered s id t →
      Succeeded (log ++ out) id ∨ Covered s' id t) : Tracked (s', log ++ out) := by
  intro r stack hr
  rw [hcalls] at hr
  exact hw.stays hr hnow fun id t hruns hle hc => hcov id r t hruns hle hc

/-- The case of `Tracked.of_step` in which a call settled. -/
private theorem Tracked.unwound {log out : List (Output α)} {s₁ : State α}
    {old top : Frame α} {rest popped kept : List (Frame α)} (hw : Tracked (s, log))
    (hcall : s.calls.get? root = some (old :: rest)) (hrest : popped ++ kept = rest)
    (hu : Unwound root (top :: popped) kept s₁ s')
    (hcalls : s₁.calls = s.calls) (hnow : s₁.now = s.now)
    (htop : ∀ id r, r ≠ root → InProgress s id r → Succeeded (log ++ out) id ∨
      top.message.messageId ≠ some id ∧ ∀ t ≤ s.now, Covered s id t → Covered s₁ id t) :
    Tracked (s', log ++ out) := by
  subst hrest
  refine hw.of_step root (fun r hr => ?_) (fun {stack} hr => ?_)
    (Nat.le_of_eq (hu.now.trans hnow).symm) fun id r t hr hin hle hc => ?_
  · rw [hu.calls, hcalls]
    split
    · rw [OrderedMap.get?_erase, if_neg hr]
    · rw [OrderedMap.get?_set, if_neg hr]
  · obtain ⟨hwait, hframes⟩ := hw _ _ hcall
    have hkept : stack = kept := by
      rw [hu.calls, hcalls] at hr
      cases kept with
      | nil => simp at hr
      | cons f kept => simpa using hr.symm
    subst hkept
    refine ⟨(hwait.rest).suffix (List.suffix_append _ _), fun f hf => ?_⟩
    have hmem := List.mem_append_right popped hf
    refine (hframes f (List.mem_cons_of_mem _ hmem)).mono
      (Nat.le_of_eq (hu.now.trans hnow).symm) (fun id hs => hs.append out) fun _ hstage => ?_
    exact absurd hstage (hwait f hmem)
  · rcases htop id r hr ⟨t, hin⟩ with hs | ⟨hne, hkeep⟩
    · exact .inl hs
    · by_cases hp : ∃ f ∈ popped, f.message.messageId = some id
      · obtain ⟨f, hf, hid⟩ := hp
        exact .inl ((hw.succeeded hcall (List.mem_append_left _ hf) hid).append out)
      · refine .inr ((hkeep t hle hc).of_eq (hu.processing id fun f hf => ?_))
        rcases List.mem_cons.mp hf with rfl | hf
        · exact hne
        · exact fun hid => hp ⟨f, hf, hid⟩

/-- The case of `Tracked.of_step` in which the stack lives on under a new top. -/
private theorem Tracked.replace {log out : List (Output α)} (hw : Tracked (s, log))
    (old new : List (Frame α)) {rest : List (Frame α)}
    (hcall : s.calls.get? root = some (old ++ rest))
    (hcalls : s'.calls = s.calls.set root (new ++ rest)) (hnow : s'.now = s.now)
    (hwait : Waiting (new ++ rest)) (hnew : ∀ f ∈ new, f.Tracked (s', log ++ out))
    (hrest : ∀ f ∈ rest, f.stage ≠ .callback)
    (hcov : ∀ id t, t ≤ s.now → Covered s id t → Succeeded (log ++ out) id ∨ Covered s' id t) :
    Tracked (s', log ++ out) := by
  refine hw.of_step root (fun r hr => ?_) (fun {stack} hr => ?_)
    (Nat.le_of_eq hnow.symm) fun id _ t _ _ => hcov id t
  · rw [hcalls, OrderedMap.get?_set, if_neg hr]
  · rw [hcalls, OrderedMap.get?_set_self] at hr
    cases hr
    refine ⟨hwait, fun f hf => ?_⟩
    rcases List.mem_append.mp hf with hf | hf
    · exact hnew f hf
    · refine ((hw _ _ hcall).2 f (List.mem_append_right _ hf)).mono (Nat.le_of_eq hnow.symm)
        (fun id hs => hs.append out) fun _ hstage => ?_
      exact absurd hstage (hrest f hf)

/-- What `handle` does to the entries of `processing`. -/
theorem Handles.covered {r : State α × List (Output α) × Progress α} (H : Handles h s message r)
    {id : α} {t : Nat} (hle : t ≤ s.now) (hc : Covered s id t) : Covered r.1 id t := by
  cases H with
  | duplicate hid hp => exact hc
  | parks hid hd hp => exact hc
  | runs hfree =>
    cases hid : message.messageId with
    | none =>
      refine hc.of_eq ?_
      simp only [State.process, hid]
    | some id' =>
      obtain ⟨t', ht, hle'⟩ := hc
      simp only [Covered, State.process, hid, OrderedMap.get?_set]
      split
      · exact ⟨s.now, rfl, hle⟩
      · exact ⟨t', ht, hle'⟩

/-- The call that `handle` suspends in a callback is tracked. -/
theorem Handles.child {r : State α × List (Output α) × Progress α} (H : Handles h s message r)
    (hr : r.2.2 = .running frame) (hproc : s'.processing = r.1.processing)
    (hnow : s'.now = s.now) (log : List (Output α)) : frame.Tracked (s', log) := by
  cases H with
  | duplicate hid hp => cases hs : h.onSuccess message <;> simp [hs, Progress.returned] at hr
  | parks hid hd hp => cases hr
  | runs hfree =>
    cases hr
    refine ⟨Nat.le_of_eq hnow.symm, fun id hid => .inr ⟨s.now, ?_, Nat.le_refl _⟩⟩
    have hid : message.messageId = some id := hid
    rw [hproc]
    simp only [State.process, hid, OrderedMap.get?_set_self]

/-- A new delivery. -/
private theorem Tracked.deliver {log : List (Output α)} (hw : Tracked (s, log)) :
    Tracked ((deliver h s message).1, log ++ (deliver h s message).2) := by
  have H := handle_cases h { s with handled := message.tag :: s.handled } message
  simp only [SequentialProcessor.deliver]
  generalize SequentialProcessor.handle h { s with handled := message.tag :: s.handled } message = r
    at *
  have hframe := H.frame
  obtain ⟨s₁, out, progress⟩ := r
  have hcalls : s₁.calls = s.calls := (congrArg State.calls hframe :)
  have hnow : s₁.now = s.now := (congrArg State.now hframe :)
  cases progress with
  | resolved =>
    exact hw.keep hcalls (Nat.le_of_eq hnow.symm) fun _ _ _ _ hle hc => .inr (H.covered hle hc)
  | rejected e =>
    exact hw.keep hcalls (Nat.le_of_eq hnow.symm) fun _ _ _ _ hle hc => .inr (H.covered hle hc)
  | running child =>
    refine hw.of_step message.tag (fun r hr => ?_) (fun {stack} hr => ?_)
      (Nat.le_of_eq hnow.symm) fun _ _ _ _ _ hle hc => .inr (H.covered hle hc)
    · simp only [OrderedMap.get?_set, if_neg hr, hcalls]
    · rw [OrderedMap.get?_set_self] at hr
      cases hr
      refine ⟨fun f hf => absurd hf List.not_mem_nil, fun f hf => ?_⟩
      cases List.mem_singleton.mp hf
      exact H.child rfl rfl hnow _

/-- A callback that returned: its id has succeeded from now on. -/
private theorem Tracked.callbackResolved {log : List (Output α)} {startTime : Nat}
    {rest : List (Frame α)} (hw : Tracked (s, log))
    (hcall : s.calls.get? root = some (⟨message, startTime, .callback⟩ :: rest)) :
    Tracked ((callbackResolved c h s root ⟨message, startTime, .callback⟩ rest).1,
      log ++ (callbackResolved c h s root ⟨message, startTime, .callback⟩ rest).2) := by
  have hkeep : ∀ id, message.messageId ≠ some id → ∀ t, Covered s id t →
      Covered (s.removeProcessing message.messageId .success).1 id t := fun id hne t hc =>
    hc.of_eq (removeProcessing_get? _ _ _ hne)
  cases hs : h.onSuccess message with
  | ok _ =>
    rw [callbackResolved_ok c root hs]
    have hdone : ∀ id, message.messageId = some id →
        Succeeded (log ++ ((s.removeProcessing message.messageId .success).2 ++
          [.onSuccess message (.ran (s.now - startTime))])) id := fun id hid =>
      ⟨.onSuccess message (.ran (s.now - startTime)), by simp, decide_eq_true hid⟩
    refine hw.replace [_] [_] hcall rfl rfl
      ((hw _ _ hcall).1.top _) (fun f hf => ?_) (hw _ _ hcall).1 fun id t _ hc => ?_
    · cases List.mem_singleton.mp hf
      exact hdone
    · by_cases hid : message.messageId = some id
      · exact .inl (hdone id hid)
      · exact .inr (hkeep id hid t hc)
  | error e =>
    have hframe := removeProcessing_frame s message.messageId .success
    obtain ⟨popped, kept, hrest, hu⟩ := settle_error_unwinds c h root
      (s.removeProcessing message.messageId .success).1 e ⟨message, startTime, .callback⟩ rest
    simp only [SequentialProcessor.callbackResolved, hs]
    refine hw.unwound hcall hrest hu (congrArg State.calls hframe :)
      (congrArg State.now hframe :) fun id r _ _ => ?_
    by_cases hid : message.messageId = some id
    · exact .inl ⟨.onSuccess message (.ran ((s.removeProcessing message.messageId .success).1.now -
        startTime)), by simp, decide_eq_true hid⟩
    · exact .inr ⟨hid, fun t _ => hkeep id hid t⟩

/-- A turn of a release loop. -/
private theorem Tracked.processDependent {log : List (Output α)} {startTime : Nat}
    {pendingId : α} {remaining : List α} {rest : List (Frame α)} (hw : Tracked (s, log))
    (hcall : s.calls.get? root =
      some (⟨message, startTime, .dependents (pendingId :: remaining)⟩ :: rest)) :
    let frame := ⟨message, startTime, .dependents (pendingId :: remaining)⟩
    Tracked ((processDependent c h s root frame pendingId remaining rest).1,
      log ++ (processDependent c h s root frame pendingId remaining rest).2) := by
  obtain ⟨hwait, hframes⟩ := hw _ _ hcall
  have hdone : ∀ id, message.messageId = some id → Succeeded log id :=
    hframes _ List.mem_cons_self
  simp only [SequentialProcessor.processDependent]
  cases hp : s.pending.get? pendingId with
  | none =>
    refine hw.replace [_] [_] hcall rfl rfl (hwait.top _)
      (fun f hf => ?_) hwait fun id t _ hc => .inr hc
    cases List.mem_singleton.mp hf
    exact fun id hid => (hdone id hid).append _
  | some data =>
    have H := handle_cases h { s with pending := s.pending.erase pendingId } data.message
    have hframe := H.frame
    dsimp only
    generalize SequentialProcessor.handle h { s with pending := s.pending.erase pendingId }
      data.message = r at *
    obtain ⟨s₁, out, progress⟩ := r
    have hcalls : s₁.calls = s.calls := (congrArg State.calls hframe :)
    have hnow : s₁.now = s.now := (congrArg State.now hframe :)
    have hkeep : ∀ id t, t ≤ s.now → Covered s id t → Covered s₁ id t := fun id t hle hc =>
      H.covered hle hc
    cases progress with
    | resolved =>
      refine hw.replace [_] [⟨message, startTime, .dependents remaining⟩] hcall (by simp [settle, hcalls]) hnow (hwait.top _) (fun f hf => ?_) hwait
        fun id t hle hc => .inr (hkeep id t hle hc)
      cases List.mem_singleton.mp hf
      exact fun id hid => (hdone id hid).append _
    | rejected e =>
      obtain ⟨popped, kept, hrest, hu⟩ :=
        settle_error_unwinds c h root s₁ e ⟨message, startTime, .dependents remaining⟩ rest
      refine hw.unwound hcall hrest hu hcalls hnow fun id r _ _ => ?_
      by_cases hid : message.messageId = some id
      · exact .inl ((hdone id hid).append _)
      · exact .inr ⟨hid, hkeep id⟩
    | running child =>
      refine hw.replace [_] [child, ⟨message, startTime, .dependents remaining⟩] hcall
        (by simp [hcalls]) hnow (Waiting.push (hwait.top _) child)
        (fun f hf => ?_) hwait fun id t hle hc => .inr (hkeep id t hle hc)
      simp only [List.mem_cons, List.not_mem_nil, or_false] at hf
      rcases hf with rfl | rfl
      · exact H.child rfl rfl hnow _
      · exact fun id hid => (hdone id hid).append _

variable [ToString α]

theorem Tracked.steps {log : List (Output α)} {event : Event α} {r : State α × List (Output α)}
    (hw : Tracked (s, log)) (htime : s.Timely c) (hok : Undisturbed (s, log) event)
    (hs : Steps c h s event r) : Tracked (r.1, log ++ r.2) := by
  cases hs with
  | handle hfresh => exact hw.deliver
  | callbackResolved hcall => exact hw.callbackResolved hcall
  | @callbackRejected root message startTime rest error hcall =>
    obtain ⟨popped, kept, hrest, hu⟩ :=
      settle_error_unwinds c h root s error ⟨message, startTime, .callback⟩ rest
    refine hw.unwound hcall hrest hu rfl rfl fun id r hr hin => ?_
    by_cases hid : message.messageId = some id
    · rcases hok id ⟨startTime, message, rest, hcall, hid⟩ with hs | hother
      · exact .inl (hs.append _)
      · exact absurd hin (hother r hr)
    · exact .inr ⟨hid, fun _ _ hc => hc⟩
  | @loopEnds root message startTime rest hcall =>
    have hu := settle_ok_unwound c h root s rest
    have hu' : Unwound root [⟨message, startTime, .dependents []⟩] rest s
        (settle c h root s (.ok ()) rest).1 :=
      ⟨hu.calls, fun id _ => hu.processing id (by simp), hu.now⟩
    refine hw.unwound hcall (List.nil_append rest) hu' rfl rfl fun id r _ _ => ?_
    by_cases hid : message.messageId = some id
    · exact .inl (((hw _ _ hcall).2 _ List.mem_cons_self id hid).append _)
    · exact .inr ⟨hid, fun _ _ hc => hc⟩
  | loopTurns hcall => exact hw.processDependent hcall
  | cleanup =>
    have hframe := sweepPending_frame c h s.pending.entries (sweepProcessing c s).1
    refine hw.keep (congrArg State.calls hframe :) (Nat.le_of_eq (congrArg State.now hframe).symm)
      fun id r t hin _ hc => .inr ?_
    obtain ⟨t', ht, hle⟩ := hc
    obtain ⟨m, rest, hcall, _⟩ := hin
    have hyoung : s.now - t ≤ c.staleTimeout := htime _ _ _ _ hcall
    have hproc : (cleanup c h s).1.processing = (sweepProcessing c s).1.processing :=
      (congrArg State.processing hframe :)
    refine ⟨t', ?_, hle⟩
    rw [hproc]
    refine OrderedMap.get?_filter.mpr ⟨ht, ?_⟩
    simp only [Bool.not_eq_true', decide_eq_false_iff_not]
    omega
  | dispose =>
    exact hw.keep rfl (Nat.le_refl _) fun id r t hin _ _ => .inl ((hok id r ⟨t, hin⟩).append _)
  | tick => exact hw.keep rfl (Nat.le_add_right _ _) fun _ _ _ _ _ hc => .inr hc

omit [ToString α] in
theorem tracked_start : Tracked ((start, []) : State α × List (Output α)) := fun _ _ hr => by cases hr

theorem Tracked.of_reach
    (hr : Reach (logged (step c)) (fun w i => w.1.Timely c ∧ Undisturbed w i.2) (start, []) w) :
    Tracked w := by
  refine hr.invariant tracked_start fun {w w' e} hw hok hlogged => ?_
  obtain ⟨s', out, hs, rfl⟩ := logged_eq_some hlogged
  exact hw.steps hok.1 hok.2 (step_cases hs)

/-! ## Starting -/

omit [ToString α] in
/-- A call of `handle` that starts the callback found the dependency resolved. -/
theorem Handles.started {r : State α × List (Output α) × Progress α} (H : Handles h s message r)
    {m : Message α} (hm : .callback m ∈ r.2.1) :
    m.messageId = none ∨ s.unresolved m.dependsOn = none := by
  cases H with
  | duplicate hid hp => simp at hm
  | parks hid hd hp => cases hm
  | runs hfree =>
    cases List.mem_singleton.mp hm
    exact hfree

omit [ToString α] in
theorem removeProcessing_not_callback (s : State α) (messageId : Option α) (cause : Cause)
    (m : Message α) : .callback m ∉ (s.removeProcessing messageId cause).2 := by
  cases messageId with
  | none => exact List.not_mem_nil
  | some id =>
    simp only [State.removeProcessing]
    split <;> simp

omit [ToString α] in
theorem processCatch_not_callback (c : Config) (h : Hooks α) (s : State α) (frame : Frame α)
    (error : Value) (m : Message α) : .callback m ∉ (processCatch c h s frame error).2.1 := by
  have hremoved := removeProcessing_not_callback s frame.message.messageId .failure m
  simp only [processCatch]
  cases h.shouldRequeue frame.message error with
  | error e => exact hremoved
  | ok requeue => cases c.logError error <;> simp [hremoved]

omit [ToString α] in
theorem settle_not_callback (c : Config) (h : Hooks α) (root : Nat) (s : State α)
    (result : Except Value Unit) (stack : List (Frame α)) (m : Message α) :
    .callback m ∉ (settle c h root s result stack).2 := by
  induction stack generalizing s result with
  | nil => cases result <;> simp [settle]
  | cons frame rest ih =>
    cases result with
    | ok _ => simp [settle]
    | error e =>
      simp only [settle, List.mem_append, not_or]
      exact ⟨processCatch_not_callback c h s frame e m, ih _ _⟩

theorem sweepPending_not_callback (c : Config) (h : Hooks α) (entries : List (α × Parked α))
    (s : State α) (m : Message α) : .callback m ∉ (sweepPending c h entries s).2 := by
  induction entries generalizing s with
  | nil => exact List.not_mem_nil
  | cons e entries ih =>
    simp only [sweepPending]
    split
    · split
      · simp
      · split
        · simp
        · simpa using ih _
    · exact ih s

/-- A step that starts the callback of a delivery with an id found its dependency resolved. -/
theorem resolved_of_started {event : Event α} {r : State α × List (Output α)} (hs : Steps c h s event r)
    {m : Message α} (hm : .callback m ∈ r.2) :
    m.messageId = none ∨ ∀ d, m.dependsOn = some d → d ∉ s.processing := by
  have hresolved : ∀ s' : State α, s'.processing = s.processing →
      m.messageId = none ∨ s'.unresolved m.dependsOn = none →
        m.messageId = none ∨ ∀ d, m.dependsOn = some d → d ∉ s.processing := by
    intro s' hproc hfree
    refine hfree.imp_right fun hnone d hd hmem => ?_
    rw [hd, State.unresolved, if_pos (.inl (hproc ▸ hmem))] at hnone
    cases hnone
  cases hs with
  | @handle message hfresh =>
    have H := handle_cases h { s with handled := message.tag :: s.handled } message
    refine hresolved { s with handled := message.tag :: s.handled } rfl (H.started ?_)
    simp only [deliver] at hm
    generalize handle h { s with handled := message.tag :: s.handled } message = r at *
    obtain ⟨s₁, out, progress⟩ := r
    cases progress <;> simpa using hm
  | @callbackResolved root message startTime rest hcall =>
    exfalso
    have hremoved := removeProcessing_not_callback s message.messageId .success m
    simp only [callbackResolved] at hm
    split at hm
    · simp [hremoved, settle_not_callback] at hm
    · simp [hremoved] at hm
  | callbackRejected hcall => exact (settle_not_callback _ _ _ _ _ _ _ hm).elim
  | loopEnds hcall => exact (settle_not_callback _ _ _ _ _ _ _ hm).elim
  | @loopTurns root message startTime pendingId remaining rest hcall =>
    simp only [processDependent] at hm
    cases hp : s.pending.get? pendingId with
    | none => simp [hp] at hm
    | some data =>
      have H := handle_cases h { s with pending := s.pending.erase pendingId } data.message
      refine hresolved { s with pending := s.pending.erase pendingId } rfl (H.started ?_)
      simp only [hp] at hm
      generalize handle h { s with pending := s.pending.erase pendingId } data.message = r at *
      obtain ⟨s₁, out, progress⟩ := r
      cases progress <;> simpa [settle_not_callback] using hm
  | cleanup =>
    have h₁ : .callback m ∉ (sweepProcessing c s).2 := by simp [sweepProcessing]
    have h₂ := sweepPending_not_callback c h s.pending.entries (sweepProcessing c s).1 m
    exact absurd hm fun hm => (List.mem_append.mp hm).elim h₁ h₂
  | dispose => cases hm
  | tick => cases hm

/-- A callback starts only when no delivery of its dependency is in progress, or one has already
succeeded: in every run in which no callback outlives `staleTimeout` and none fails while another
delivery of its id is in progress. -/
theorem started_after_dependency
    (hr : Reach (logged (step c)) (fun w i => w.1.Timely c ∧ Undisturbed w i.2) (start, []) w)
    {i : Hooks α × Event α} {out : List (Output α)} (hs : step c w.1 i = some (s', out))
    {m : Message α} (hm : .callback m ∈ out) (hid : m.messageId ≠ none) {d : α}
    (hd : m.dependsOn = some d) :
    (∀ r, ¬ InProgress w.1 d r) ∨ Succeeded w.2 d := by
  rcases resolved_of_started (step_cases hs) hm with hnone | hfree
  · exact absurd hnone hid
  by_cases hsucc : Succeeded w.2 d
  · exact .inr hsucc
  refine .inl fun r ⟨t, message, rest, hcall, hmid⟩ => ?_
  obtain ⟨_, htracked⟩ := (Tracked.of_reach hr _ _ hcall).2 _ List.mem_cons_self
  rcases htracked d hmid with hs | ⟨t', ht, _⟩
  · exact hsucc hs
  · exact hfree d hd (OrderedMap.mem_of_get? ht)

/-- Released by the success of its dependency, a parked delivery starts. -/
theorem started_after_dependency_run : ∃ (w : State String × List (Output String)) (d : String),
    (∀ r, ¬ InProgress w.1 d r) ∨ Succeeded w.2 d := by
  let c : Config := ⟨30000, true⟩
  let h : Hooks String := .returning false
  let item : Message String := { tag := 2, messageId := some "item", dependsOn := some "order" }
  have hcalm : ∀ {s : State String}, s.now = 0 → s.Timely c := fun h =>
    State.Timely.of_now_le (by simp [h])
  have h₁ : Reach (logged (step c)) (fun w i => w.1.Timely c ∧ Undisturbed w i.2) (start, []) _ :=
    .tail (e := (h, Event.handle { tag := 1, messageId := some "order" })) .refl
      ⟨hcalm rfl, trivial⟩ rfl
  have h₂ := h₁.tail (e := (h, Event.handle item)) ⟨hcalm rfl, trivial⟩ rfl
  have h₃ := h₂.tail (e := (h, Event.callbackResolved 1)) ⟨hcalm rfl, trivial⟩ rfl
  exact ⟨_, "order", started_after_dependency h₃ (i := (h, Event.processDependents 1)) rfl
    (m := item) (by simp) (by simp [item]) rfl⟩

/-- Two deliveries of one id run; the first one fails and takes the entry of both, so a dependent
starts while the second is still in progress. -/
theorem started_before_dependency : ∃ (w : State String × List (Output String))
    (input : Hooks String × Event String) (r : State String × List (Output String))
    (message : Message String),
    Reach (logged (step ⟨30000, true⟩)) (fun w _ => w.1.Timely ⟨30000, true⟩) (start, []) w ∧
      step ⟨30000, true⟩ w.1 input = some r ∧ .callback message ∈ r.2 ∧
      message.messageId = some "item" ∧ message.dependsOn = some "order" ∧
      (∃ root, InProgress w.1 "order" root) ∧ ¬ Succeeded w.2 "order" := by
  let c : Config := ⟨30000, true⟩
  let h : Hooks String := .returning false
  let item : Message String := { tag := 3, messageId := some "item", dependsOn := some "order" }
  have hcalm : ∀ {s : State String}, s.now = 0 → s.Timely c := fun h =>
    State.Timely.of_now_le (by simp [h])
  have h₁ : Reach (logged (step c)) (fun w _ => w.1.Timely c) (start, []) _ :=
    .tail (e := (h, Event.handle { tag := 1, messageId := some "order" })) .refl (hcalm rfl) rfl
  have h₂ := h₁.tail (e := (h, Event.handle { tag := 2, messageId := some "order" })) (hcalm rfl)
    rfl
  have h₃ := h₂.tail (e := (h, Event.callbackRejected 1 (.error "no stock"))) (hcalm rfl) rfl
  exact ⟨_, (h, Event.handle item), _, item, h₃, rfl, List.mem_cons_self, rfl, rfl,
    ⟨2, 0, _, _, rfl, rfl⟩, by decide⟩

end SequentialProcessor
end RabbitMQ
