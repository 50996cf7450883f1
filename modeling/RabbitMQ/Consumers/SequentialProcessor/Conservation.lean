import RabbitMQ.Consumers.SequentialProcessor

/-! Every delivery passed to `handle` is parked, running or settled.

The count of a delivery's places (its entries in `pending`, the call stacks whose top frame runs
its callback, the calls of `onSuccess` and `onFailure` made for it) is conserved by every step: it
is one for each delivery handed over and zero for any other. The thrown values matter: the `catch`
block of `#process` renders what was thrown before it calls `onFailure`. -/

namespace RabbitMQ
namespace SequentialProcessor

open Transition

variable {α : Type}

/-- The injected callbacks do not throw. -/
structure Hooks.Return (h : Hooks α) : Prop where
  onSuccess : ∀ m, h.onSuccess m = .ok ()
  shouldRequeue : ∀ m e, ∃ requeue, h.shouldRequeue m e = .ok requeue
  onFailure : ∀ m e, h.onFailure m e = .ok ()

/-- The log line about a thrown value can be rendered. -/
def Config.Loggable (c : Config) (error : Value) : Prop := c.logger → Describable error

instance (c : Config) (error : Value) : Decidable (c.Loggable error) :=
  inferInstanceAs (Decidable (_ → _))

theorem Config.Loggable.logError {c : Config} (h : c.Loggable error) :
    c.logError error = .ok () := by
  unfold Config.logError
  split
  · rename_i hl
    obtain ⟨text, ht⟩ := (h hl).text
    rw [ht]; rfl
  · rfl

/-! ## The places of a delivery -/

/-- The stack's top frame runs the callback of the delivery with this tag. -/
def topRuns (tag : Nat) : List (Frame α) → Bool
  | ⟨message, _, .callback⟩ :: _ => message.tag = tag
  | _ => false

def Output.settles (tag : Nat) : Output α → Bool
  | .onSuccess message _ | .onFailure message _ _ _ => message.tag = tag
  | _ => false

/-- The processor is done with the delivery: it settled it, or a sweep dropped it undecided. -/
def Output.ends (tag : Nat) : Output α → Bool
  | .undecided message => message.tag = tag
  | o => o.settles tag

theorem Output.ends_of_settles {o : Output α} (h : o.settles tag) : o.ends tag := by
  cases o with
  | undecided => cases h
  | _ => exact h

def State.parkedCount (s : State α) (tag : Nat) : Nat :=
  s.pending.count fun _ data => data.message.tag = tag

def State.runningCount (s : State α) (tag : Nat) : Nat :=
  s.calls.count fun _ stack => topRuns tag stack

def settlements (log : List (Output α)) (tag : Nat) : Nat := log.countP (·.settles tag)

def Progress.runs (tag : Nat) : Progress α → Bool
  | .running frame => topRuns tag [frame]
  | _ => false

/-- The stack of a loop whose call of `handle` got this far. -/
def Progress.onto (stack : List (Frame α)) : Progress α → List (Frame α)
  | .running child => child :: stack
  | _ => stack

/-- Below the top of a stack no frame waits for a callback. -/
def Waiting : List (Frame α) → Prop
  | [] => True
  | _ :: rest => ∀ frame ∈ rest, frame.stage ≠ .callback

theorem topRuns_callback (message : Message α) (startTime tag : Nat) (rest : List (Frame α)) :
    topRuns tag (⟨message, startTime, .callback⟩ :: rest) = decide (message.tag = tag) := rfl

theorem topRuns_dependents (message : Message α) (startTime tag : Nat) (ids : List α)
    (rest : List (Frame α)) : topRuns tag (⟨message, startTime, .dependents ids⟩ :: rest) = false :=
  rfl

theorem topRuns_rest {frame : Frame α} {rest : List (Frame α)} (h : Waiting (frame :: rest))
    (tag : Nat) : topRuns tag rest = false := by
  match rest, h with
  | [], _ => rfl
  | ⟨_, _, .callback⟩ :: _, h => exact absurd rfl (h _ List.mem_cons_self)
  | ⟨_, _, .dependents _⟩ :: _, _ => rfl

theorem Waiting.rest {frame : Frame α} {rest : List (Frame α)} (h : Waiting (frame :: rest)) :
    Waiting rest := by
  cases rest with
  | nil => trivial
  | cons g rest => exact fun f hf => h f (List.mem_cons_of_mem _ hf)

theorem Waiting.suffix {stack kept : List (Frame α)} (h : Waiting stack) (hs : kept <:+ stack) :
    Waiting kept := by
  obtain ⟨popped, rfl⟩ := hs
  induction popped with
  | nil => exact h
  | cons f popped ih => exact ih h.rest

/-- `Waiting` does not depend on the top frame. -/
theorem Waiting.top {frame : Frame α} {rest : List (Frame α)} (h : Waiting (frame :: rest))
    (frame' : Frame α) : Waiting (frame' :: rest) := h

theorem Waiting.push {message : Message α} {startTime : Nat} {ids : List α}
    {rest : List (Frame α)} (h : Waiting (⟨message, startTime, .dependents ids⟩ :: rest))
    (child : Frame α) : Waiting (child :: ⟨message, startTime, .dependents ids⟩ :: rest) := by
  intro f hf
  rcases List.mem_cons.mp hf with rfl | hf
  · simp
  · exact h f hf

/-- Whether a call of `handle` made by a loop left a callback on top of the stack. -/
theorem topRuns_progress (progress : Progress α) (message : Message α) (startTime tag : Nat)
    (ids : List α) (rest : List (Frame α)) :
    topRuns tag (progress.onto (⟨message, startTime, .dependents ids⟩ :: rest)) =
      progress.runs tag := by
  cases progress with
  | running child =>
    obtain ⟨m, t, stage⟩ := child
    cases stage <;> rfl
  | _ => rfl

theorem settlements_append (log log' : List (Output α)) (tag : Nat) :
    settlements (log ++ log') tag = settlements log tag + settlements log' tag :=
  List.countP_append

theorem settlements_removed (ids : List α) (cause : Cause) (tag : Nat) :
    settlements (ids.map fun id => .removed id cause) tag = 0 := by
  refine List.countP_eq_zero.mpr fun o ho => ?_
  obtain ⟨id, _, rfl⟩ := List.mem_map.mp ho
  simp [Output.settles]

variable [DecidableEq α] {c : Config} {h : Hooks α} {s s' : State α}
  {out : List (Output α)} {message : Message α} {tag root : Nat}

/-! ## What each method does to the places -/

theorem parkedCount_park {messageId dependsOn : α} (hp : messageId ∉ s.pending) :
    (s.park messageId dependsOn message).parkedCount tag =
      s.parkedCount tag + (decide (message.tag = tag)).toNat :=
  OrderedMap.count_set_of_get?_none (OrderedMap.not_mem_iff.mp hp) _

theorem settlements_removeProcessing (s : State α) (messageId : Option α) (cause : Cause)
    (tag : Nat) : settlements (s.removeProcessing messageId cause).2 tag = 0 := by
  cases messageId with
  | none => rfl
  | some id =>
    simp only [State.removeProcessing]
    split <;> rfl

/-- `handle` parks the delivery, settles it or starts its callback. -/
theorem Handles.places {r : State α × List (Output α) × Progress α}
    (H : Handles h s message r) (hh : h.Return) (tag : Nat) :
    r.1.parkedCount tag + settlements r.2.1 tag + (r.2.2.runs tag).toNat =
      s.parkedCount tag + (decide (message.tag = tag)).toNat := by
  cases H with
  | duplicate hid hp =>
    have : settlements [Output.onSuccess message .duplicate] tag =
        (decide (message.tag = tag)).toNat := by
      by_cases ht : message.tag = tag <;> simp [settlements, Output.settles, ht]
    simp only [this, hh.onSuccess, Progress.returned, Progress.runs, Bool.toNat_false,
      Nat.add_zero]
  | parks hid hd hp => exact parkedCount_park hp
  | runs hfree => rfl

theorem Handles.not_rejected {r : State α × List (Output α) × Progress α}
    (H : Handles h s message r) (hh : h.Return) (error : Value) : r.2.2 ≠ .rejected error := by
  cases H with
  | duplicate hid hp => simp [hh.onSuccess, Progress.returned]
  | parks hid hd hp => simp
  | runs hfree => simp

/-- With a value that can be rendered and hooks that return, the `catch` block settles the delivery
as a failure and ends the call. -/
theorem processCatch_returns (frame : Frame α) {requeue : Bool}
    (hrequeue : h.shouldRequeue frame.message error = .ok requeue) (hc : c.Loggable error)
    (hfail : h.onFailure frame.message error = .ok ()) (s : State α) :
    processCatch c h s frame error =
      ({ s with processing := (s.removeProcessing frame.message.messageId .failure).1.processing },
        (s.removeProcessing frame.message.messageId .failure).2 ++
          [.onFailure frame.message error requeue (.ran (s.now - frame.startTime))], .ok ()) := by
  simp only [processCatch, hrequeue, hc.logError, hfail]
  rw [removeProcessing_frame]

omit [DecidableEq α] in
/-- Writing a stack in place of another. -/
theorem runningCount_set {old : List (Frame α)} (hold : s.calls.get? root = some old)
    (stack : List (Frame α)) (tag : Nat) :
    State.runningCount { s with calls := s.calls.set root stack } tag + (topRuns tag old).toNat =
      s.runningCount tag + (topRuns tag stack).toNat :=
  OrderedMap.count_set_of_get? hold stack

/-- The frames awaiting a call that returned go on, or the whole call of `handle` is over. -/
theorem settle_ok_eq (stack : List (Frame α)) :
    settle c h root s (.ok ()) stack =
      ({ s with
          calls := if stack.isEmpty then s.calls.erase root else s.calls.set root stack },
        if stack.isEmpty then [.handled root (.ok ())] else []) := by
  cases stack <;> rfl

theorem settle_ok_places {old : List (Frame α)} (hold : s.calls.get? root = some old)
    (stack : List (Frame α)) (tag : Nat) :
    (settle c h root s (.ok ()) stack).1.runningCount tag + (topRuns tag old).toNat =
      s.runningCount tag + (topRuns tag stack).toNat ∧
    settlements (settle c h root s (.ok ()) stack).2 tag = 0 := by
  cases stack with
  | nil => exact ⟨OrderedMap.count_erase_of_get? hold, rfl⟩
  | cons f rest => exact ⟨runningCount_set hold _ tag, rfl⟩

variable [ToString α]

theorem sweepPending_places (hh : h.Return) (entries : List (α × Parked α)) (s : State α)
    (hl : ∀ e ∈ entries, s.pending.get? e.1 = some e.2) (hn : (entries.map Prod.fst).Nodup)
    (tag : Nat) :
    (sweepPending c h entries s).1.parkedCount tag +
        settlements (sweepPending c h entries s).2 tag = s.parkedCount tag ∧
      (sweepPending c h entries s).1.calls = s.calls ∧
      (sweepPending c h entries s).1.handled = s.handled := by
  induction entries generalizing s with
  | nil => exact ⟨rfl, rfl, rfl⟩
  | cons e entries ih =>
    obtain ⟨messageId, data⟩ := e
    have hrest := removePending_entries hl hn data.dependsOn
    have hnodup := (List.nodup_cons.mp hn).2
    simp only [sweepPending]
    split
    · have hframe := removePending_frame s messageId data.dependsOn
      have hpend := congrArg State.pending hframe
      have hcalls := congrArg State.calls hframe
      have hhandled := congrArg State.handled hframe
      obtain ⟨requeue, hr⟩ := hh.shouldRequeue data.message
        data.expiry
      simp only [hr, hh.onFailure]
      obtain ⟨hplaces, hc', hh'⟩ := ih _ hrest hnodup
      have herase : (s.removePending messageId data.dependsOn).parkedCount tag +
          (decide (data.message.tag = tag)).toNat = s.parkedCount tag := by
        simp only [State.parkedCount, hpend]
        exact OrderedMap.count_erase_of_get? (hl _ List.mem_cons_self)
      refine ⟨?_, hc'.trans hcalls, hh'.trans hhandled⟩
      rw [settlements_append]
      have : settlements [Output.removed messageId .expired, .onFailure data.message
          data.expiry requeue .expired] tag =
          (decide (data.message.tag = tag)).toNat := by
        by_cases ht : data.message.tag = tag <;> simp [settlements, Output.settles, ht]
      omega
    · exact ih s (fun e he => hl e (List.mem_cons_of_mem _ he)) hnodup

/-! ## The invariant -/

/-- The steps the processor is built for: its hooks return and it is not disposed. -/
structure Permitted (input : Hooks α × Event α) : Prop where
  hooks : input.1.Return
  live : input.2 ≠ .dispose

/-- A value thrown by a callback can be rendered in the log line about it. -/
def Event.Loggable (c : Config) : Event α → Prop
  | .callbackRejected _ error => c.Loggable error
  | _ => True

/-- Permitted, with the condition that keeps the `catch` block of `#process` from throwing. -/
structure Orderly (c : Config) (input : Hooks α × Event α) : Prop extends Permitted input where
  loggable : input.2.Loggable c

structure Conserved (w : State α × List (Output α)) : Prop where
  roots : ∀ {root stack}, w.1.calls.get? root = some stack → root ∈ w.1.handled
  waiting : ∀ {root stack}, w.1.calls.get? root = some stack → Waiting stack
  places : ∀ tag, w.1.parkedCount tag + w.1.runningCount tag + settlements w.2 tag =
    if tag ∈ w.1.handled then 1 else 0

omit [DecidableEq α] [ToString α] in
/-- The obligation of a step that touches at most the stack of `root`. -/
private theorem Conserved.of_step {w : State α × List (Output α)} (hw : Conserved w) (root : Nat)
    (hcalls : ∀ {r stack}, s'.calls.get? r = some stack → r ≠ root →
      w.1.calls.get? r = some stack)
    (hroot : ∀ {stack}, s'.calls.get? root = some stack → root ∈ s'.handled ∧ Waiting stack)
    (hsub : ∀ tag ∈ w.1.handled, tag ∈ s'.handled)
    (hplaces : ∀ tag, s'.parkedCount tag + s'.runningCount tag + settlements out tag +
        (if tag ∈ w.1.handled then 1 else 0) =
      w.1.parkedCount tag + w.1.runningCount tag + (if tag ∈ s'.handled then 1 else 0)) :
    Conserved (s', w.2 ++ out) where
  roots {r stack} hr := by
    by_cases h : r = root
    · subst h; exact (hroot hr).1
    · exact hsub _ (hw.roots (hcalls hr h))
  waiting {r stack} hr := by
    by_cases h : r = root
    · subst h; exact (hroot hr).2
    · exact hw.waiting (hcalls hr h)
  places tag := by
    have h1 := hplaces tag
    have h2 := hw.places tag
    simp only [settlements_append]
    omega

omit [DecidableEq α] [ToString α] in
/-- The case of `Conserved.of_step` in which no delivery is new. -/
private theorem Conserved.of_move {w : State α × List (Output α)} (hw : Conserved w)
    {old : List (Frame α)} (hold : w.1.calls.get? root = some old)
    (hhandled : s'.handled = w.1.handled) (stack : Option (List (Frame α)))
    (hcalls : ∀ r, s'.calls.get? r = if r = root then stack else w.1.calls.get? r)
    (hwait : ∀ st ∈ stack, Waiting st)
    (hplaces : ∀ tag, s'.parkedCount tag + s'.runningCount tag + settlements out tag =
      w.1.parkedCount tag + w.1.runningCount tag) : Conserved (s', w.2 ++ out) := by
  refine hw.of_step root (fun hr hne => ?_) (fun hr => ?_) (fun t ht => hhandled ▸ ht)
    fun tag => ?_
  · rwa [hcalls, if_neg hne] at hr
  · rw [hcalls, if_pos rfl] at hr
    exact ⟨hhandled ▸ hw.roots hold, hwait _ hr⟩
  · rw [hhandled, hplaces]

omit [ToString α] in
/-- A call of `handle` or of its callback returned, and the frames below go on. -/
private theorem Conserved.settle_ok {w : State α × List (Output α)} (hw : Conserved w)
    {frame : Frame α} {rest : List (Frame α)} (hcall : w.1.calls.get? root = some (frame :: rest))
    (hcalls : s.calls = w.1.calls) (hhandled : s.handled = w.1.handled)
    (hpend : s.pending = w.1.pending)
    (hout : ∀ tag, settlements out tag = (topRuns tag (frame :: rest)).toNat) :
    Conserved ((settle c h root s (.ok ()) rest).1,
      w.2 ++ (out ++ (settle c h root s (.ok ()) rest).2)) := by
  have hwait := hw.waiting hcall
  refine hw.of_move hcall ?_ (if rest.isEmpty then none else some rest) (fun r => ?_)
    (fun st hst => ?_) fun tag => ?_
  · rw [settle_ok_eq]; exact hhandled
  · rw [settle_ok_eq]
    cases rest with
    | nil => simp only [List.isEmpty_nil, if_true, OrderedMap.get?_erase, hcalls]
    | cons f rest => simp [OrderedMap.get?_set, hcalls]
  · cases rest with
    | nil => cases hst
    | cons f rest => cases hst; exact hwait.rest
  · obtain ⟨hrun, hset⟩ := settle_ok_places (c := c) (h := h) (hcalls ▸ hcall) rest tag
    have hparked : (settle c h root s (.ok ()) rest).1.parkedCount tag = w.1.parkedCount tag := by
      rw [settle_ok_eq, State.parkedCount, State.parkedCount, hpend]
    have hrunning : s.runningCount tag = w.1.runningCount tag := by
      rw [State.runningCount, State.runningCount, hcalls]
    rw [settlements_append, hout tag, hset, hparked]
    rw [topRuns_rest hwait] at hrun
    simp only [Bool.toNat_false] at hrun
    omega

omit [ToString α] in
/-- When the call of `handle` does not throw, a turn of the loop skips an id that is gone, re-parks
its delivery or starts its callback on top of the stack. -/
theorem processDependent_returns {pendingId : α} (haccepted : ∀ data error,
      s.pending.get? pendingId = some data →
        (handle h { s with pending := s.pending.erase pendingId } data.message).2.2 ≠
          .rejected error) (root : Nat) (frame : Frame α) (remaining : List α)
    (rest : List (Frame α)) :
    processDependent c h s root frame pendingId remaining rest =
      let stack := { frame with stage := .dependents remaining } :: rest
      match s.pending.get? pendingId with
      | none => ({ s with calls := s.calls.set root stack }, [.visited root rest.length pendingId])
      | some data =>
        let r := handle h { s with pending := s.pending.erase pendingId } data.message
        ({ r.1 with calls := r.1.calls.set root (r.2.2.onto stack) },
          .visited root rest.length pendingId :: .removed pendingId .released :: r.2.1) := by
  cases hp : s.pending.get? pendingId with
  | none => simp only [processDependent, hp]
  | some data =>
    have hrej := fun error => haccepted data error hp
    simp only [processDependent, hp]
    generalize handle h { s with pending := s.pending.erase pendingId } data.message = r at *
    obtain ⟨s₁, out, progress⟩ := r
    cases progress with
    | resolved => simp [settle, Progress.onto]
    | rejected e => exact absurd rfl (hrej e)
    | running child => simp [Progress.onto]

omit [ToString α] in
/-- A new delivery takes one of the three places. -/
private theorem Conserved.deliver {log : List (Output α)} (hw : Conserved (s, log))
    (hh : h.Return) (hfresh : message.tag ∉ s.handled) :
    Conserved ((deliver h s message).1, log ++ (deliver h s message).2) := by
  have hnone : s.calls.get? message.tag = none := by
    cases hr : s.calls.get? message.tag with
    | none => rfl
    | some stack => exact absurd (hw.roots hr) hfresh
  have H := handle_cases h { s with handled := message.tag :: s.handled } message
  have hnew : ∀ tag, (if tag ∈ message.tag :: s.handled then 1 else 0) =
      (if tag ∈ s.handled then 1 else 0) + (decide (message.tag = tag)).toNat := by
    intro tag
    by_cases ht : message.tag = tag
    · subst ht; simp [hfresh]
    · have : tag ≠ message.tag := fun h => ht h.symm
      simp [ht, this]
  simp only [SequentialProcessor.deliver]
  generalize SequentialProcessor.handle h { s with handled := message.tag :: s.handled } message = r
    at *
  obtain ⟨s₁, out, progress⟩ := r
  have hcalls := congrArg State.calls H.frame
  have hhandled := congrArg State.handled H.frame
  have hplaces := H.places hh
  have hrej := H.not_rejected hh
  simp only at hcalls hhandled hplaces
  have hparked : ∀ tag, State.parkedCount { s with handled := message.tag :: s.handled } tag =
    s.parkedCount tag := fun _ => rfl
  cases progress with
  | resolved =>
    dsimp only
    refine hw.of_step message.tag (fun hr _ => hcalls ▸ hr) (fun hr => ?_)
      (fun tag ht => hhandled ▸ List.mem_cons_of_mem _ ht) fun tag => ?_
    · rw [hcalls, hnone] at hr; cases hr
    · have h1 := hplaces tag
      have h2 : settlements [(.handled message.tag (.ok ()) : Output α)] tag = 0 := rfl
      simp only [Progress.runs, Bool.toNat_false, hparked] at h1
      dsimp only
      rw [hhandled, settlements_append, hnew, State.runningCount, hcalls, h2,
        ← State.runningCount]
      omega
  | rejected e => exact absurd rfl (hrej e)
  | running frame =>
    dsimp only
    refine hw.of_step message.tag (fun hr hne => ?_) (fun hr => ?_)
      (fun tag ht => hhandled ▸ List.mem_cons_of_mem _ ht) fun tag => ?_
    · simp only [OrderedMap.get?_set, if_neg hne, hcalls] at hr; exact hr
    · rw [OrderedMap.get?_set_self] at hr
      cases hr
      exact ⟨hhandled ▸ List.mem_cons_self, fun f hf => absurd hf List.not_mem_nil⟩
    · have h1 := hplaces tag
      have h2 : (s₁.calls.set message.tag [frame]).count (fun _ st => topRuns tag st) =
          s.runningCount tag + (topRuns tag [frame]).toNat := by
        rw [hcalls]; exact OrderedMap.count_set_of_get?_none hnone _
      simp only [Progress.runs, hparked] at h1
      simp only [hhandled, hnew, State.runningCount, State.parkedCount] at *
      omega

omit [ToString α] in
/-- A turn of a release loop moves at most the delivery it visits. -/
private theorem Conserved.processDependent {log : List (Output α)} (hw : Conserved (s, log))
    (hh : h.Return) {startTime : Nat} {pendingId : α} {remaining : List α} {rest : List (Frame α)}
    (hcall : s.calls.get? root =
      some (⟨message, startTime, .dependents (pendingId :: remaining)⟩ :: rest)) :
    let frame := ⟨message, startTime, .dependents (pendingId :: remaining)⟩
    Conserved ((processDependent c h s root frame pendingId remaining rest).1,
      log ++ (processDependent c h s root frame pendingId remaining rest).2) := by
  have hwait := hw.waiting hcall
  simp only [processDependent_returns fun data error _ =>
    (handle_cases h { s with pending := s.pending.erase pendingId } data.message).not_rejected hh
      error]
  cases hp : s.pending.get? pendingId with
  | none =>
    refine hw.of_move hcall rfl (some _) (fun r => OrderedMap.get?_set _ _ _ _)
      (fun st hst => by cases hst; exact hwait.top _) fun tag => ?_
    have hrun := runningCount_set hcall (⟨message, startTime, .dependents remaining⟩ :: rest) tag
    simp only [topRuns_dependents, Bool.toNat_false, Nat.add_zero] at hrun
    simp only [hrun]
    rfl
  | some data =>
    have H := handle_cases h { s with pending := s.pending.erase pendingId } data.message
    dsimp only
    generalize SequentialProcessor.handle h { s with pending := s.pending.erase pendingId }
      data.message = r at *
    obtain ⟨s₁, out, progress⟩ := r
    have hcalls := congrArg State.calls H.frame
    have hhandled := congrArg State.handled H.frame
    have hplaces := H.places hh
    simp only at hcalls hhandled hplaces
    refine hw.of_move hcall hhandled (some _)
      (fun r => by simp only [hcalls]; exact OrderedMap.get?_set _ _ _ _) (fun st hst => ?_)
      fun tag => ?_
    · cases hst
      cases progress with
      | running child => exact Waiting.push (hwait.top _) child
      | _ => exact hwait.top _
    · have hrun := runningCount_set hcall
        (progress.onto (⟨message, startTime, .dependents remaining⟩ :: rest)) tag
      have herase : State.parkedCount { s with pending := s.pending.erase pendingId } tag +
          (decide (data.message.tag = tag)).toNat = s.parkedCount tag :=
        OrderedMap.count_erase_of_get? hp
      have hout : settlements (.visited root rest.length pendingId :: .removed pendingId .released :: out) tag =
        settlements out tag := rfl
      have h1 := hplaces tag
      simp only [topRuns_progress, topRuns_dependents, Bool.toNat_false] at hrun
      simp only [hout, State.runningCount, hcalls] at hrun ⊢
      simp only [State.parkedCount] at *
      omega

/-- Every permitted step keeps the places of every delivery. -/
theorem Conserved.steps {log : List (Output α)} {event : Event α} {r : State α × List (Output α)}
    (hw : Conserved (s, log)) (hok : Orderly c (h, event)) (hs : Steps c h s event r) :
    Conserved (r.1, log ++ r.2) := by
  obtain ⟨⟨hh, hlive⟩, hok⟩ := hok
  cases hs with
  | @handle message hfresh => exact hw.deliver hh hfresh
  | @callbackResolved root message startTime rest hcall =>
    rw [callbackResolved_ok c root (hh.onSuccess message)]
    refine hw.of_move hcall rfl (some _) (fun r => OrderedMap.get?_set _ _ _ _)
      (fun st hst => by cases hst; exact (hw.waiting hcall).top _) fun tag => ?_
    have hrun := runningCount_set hcall (⟨message, startTime, .dependents
      ((s.removeProcessing message.messageId .success).1.takeDependents message.messageId).2⟩ ::
        rest) tag
    have hout : settlements [Output.onSuccess message (.ran (s.now - startTime))] tag =
        (decide (message.tag = tag)).toNat := by
      by_cases ht : message.tag = tag <;> simp [settlements, Output.settles, ht]
    simp only [topRuns_callback, topRuns_dependents, Bool.toNat_false, State.runningCount,
      State.parkedCount, settlements_append, settlements_removeProcessing, hout] at hrun ⊢
    omega
  | @callbackRejected root message startTime rest error hcall =>
    obtain ⟨requeue, hrequeue⟩ := hh.shouldRequeue message error
    simp only [settle, processCatch_returns ⟨message, startTime, .callback⟩ hrequeue hok
      (hh.onFailure message error)]
    refine hw.settle_ok hcall rfl rfl rfl fun tag => ?_
    rw [settlements_append, settlements_removeProcessing, topRuns_callback]
    by_cases ht : message.tag = tag <;> simp [settlements, Output.settles, ht]
  | @loopEnds root message startTime rest hcall =>
    exact hw.settle_ok hcall rfl rfl rfl fun tag => (rfl : settlements [] tag = _)
  | @loopTurns root message startTime pendingId remaining rest hcall =>
    exact hw.processDependent hh hcall
  | cleanup =>
    have hsweep := sweepPending_places (c := c) hh s.pending.entries (sweepProcessing c s).1
      (fun e he => OrderedMap.get?_eq_some_iff.mpr he) s.pending.nodup
    obtain ⟨-, hcalls, hhandled⟩ := hsweep 0
    refine ⟨fun hr => ?_, fun hr => ?_, fun tag => ?_⟩
    · exact hhandled ▸ hw.roots (hcalls ▸ hr)
    · exact hw.waiting (hcalls ▸ hr)
    · have hparked : (sweepProcessing c s).1.parkedCount tag = s.parkedCount tag := rfl
      have hout : settlements (sweepProcessing c s).2 tag = 0 := settlements_removed _ _ _
      have hrunning : (cleanup c h s).1.runningCount tag = s.runningCount tag :=
        congrArg (fun calls => calls.count fun _ stack => topRuns tag stack) hcalls
      have hsame : (cleanup c h s).1.handled = s.handled := hhandled
      have hplaces : (cleanup c h s).1.parkedCount tag + settlements (cleanup c h s).2 tag =
          s.parkedCount tag := by
        simp only [cleanup, settlements_append, hout, Nat.zero_add]
        exact (hsweep tag).1
      have hbefore := hw.places tag
      simp only [settlements_append, hsame, hrunning] at hbefore ⊢
      omega
  | dispose => exact absurd rfl hlive
  | tick =>
    refine ⟨hw.roots, hw.waiting, fun tag => ?_⟩
    rw [List.append_nil]
    exact hw.places tag

omit [DecidableEq α] [ToString α] in
theorem conserved_start : Conserved ((start, []) : State α × List (Output α)) where
  roots hr := by cases hr
  waiting hr := by cases hr
  places _ := rfl

theorem Conserved.of_reach {w : State α × List (Output α)}
    (hr : Reach (logged (step c)) (fun _ => Orderly c) (SequentialProcessor.start, []) w) :
    Conserved w := by
  refine hr.invariant conserved_start fun {w w' e} hw hok hlogged => ?_
  obtain ⟨s', out, hs, rfl⟩ := logged_eq_some hlogged
  exact hw.steps hok (step_cases hs)

/-- A delivery is parked, running or settled: in one of these places only, and once. -/
def OnePlace (w : State α × List (Output α)) (tag : Nat) : Prop :=
  let places := (w.1.parkedCount tag, w.1.runningCount tag, settlements w.2 tag)
  places = (1, 0, 0) ∨ places = (0, 1, 0) ∨ places = (0, 0, 1)

omit [ToString α] in
instance (w : State α × List (Output α)) (tag : Nat) : Decidable (OnePlace w tag) :=
  inferInstanceAs (Decidable (_ ∨ _))

/-- In every run of permitted steps whose thrown values can be rendered, each delivery handed to
`handle` is parked, or its callback runs, or it is settled; it has been settled once in the last
case and not at all in the others. -/
theorem delivery_conserved {w : State α × List (Output α)}
    (hr : Reach (logged (step c)) (fun _ => Orderly c) (SequentialProcessor.start, []) w)
    {tag : Nat} (ht : tag ∈ w.1.handled) : OnePlace w tag := by
  have h := (Conserved.of_reach hr).places tag
  rw [if_pos ht] at h
  simp only [OnePlace, Prod.mk.injEq]
  omega

/-- Hooks that return; `requeue` is the answer of the retry policy. -/
def Hooks.returning (requeue : Bool) : Hooks α :=
  ⟨fun _ => .ok (), fun _ _ => .ok requeue, fun _ _ => .ok ()⟩

omit [DecidableEq α] [ToString α] in
theorem Hooks.Return.returning (requeue : Bool) : (Hooks.returning requeue : Hooks α).Return :=
  ⟨fun _ => rfl, fun _ _ => ⟨requeue, rfl⟩, fun _ _ => rfl⟩

omit [DecidableEq α] [ToString α] in
/-- Events that are handled with hooks that return. -/
theorem orderly_of_mem_map {events : List (Event α)} {requeue : Bool}
    (he : ∀ event ∈ events, event ≠ .dispose ∧ event.Loggable c) :
    ∀ input ∈ events.map (Hooks.returning requeue, ·), Orderly c input := by
  intro input hi
  obtain ⟨event, hmem, rfl⟩ := List.mem_map.mp hi
  exact ⟨⟨.returning _, (he event hmem).1⟩, (he event hmem).2⟩

/-- A delivery waits for another one, whose callback throws `error`. -/
def parkedRun (error : Value) : List (Hooks String × Event String) :=
  [.handle { tag := 1, messageId := some "order" },
    .handle { tag := 2, messageId := some "item", dependsOn := some "order" },
    .callbackRejected 1 error].map (Hooks.returning false, ·)

theorem delivery_conserved_run : ∃ w : State String × List (Output String),
    w.1.handled = [2, 1] ∧ OnePlace w 1 ∧ OnePlace w 2 := by
  have hok : ∀ e ∈ parkedRun (.error "no stock"), Orderly ⟨30000, true⟩ e :=
    orderly_of_mem_map (by simp [Event.Loggable, Config.Loggable, describable_error])
  have hrun : (run (logged (step ⟨30000, true⟩)) anyStep (start, [])
      (parkedRun (.error "no stock"))).any fun w => w.1.handled = [2, 1] := by decide +kernel
  obtain ⟨w, hw, hh⟩ := (Option.any_eq_true _ _).mp hrun
  have hh : w.1.handled = [2, 1] := of_decide_eq_true hh
  have hr := reach_of_run_of_forall (fun e he _ => hok e he) hw
  exact ⟨w, hh, delivery_conserved hr (by simp [hh]), delivery_conserved hr (by simp [hh])⟩

/-- A callback that throws a value with no string conversion leaves its delivery in no place: the
log line about it throws in the `catch` block, before `onFailure` is called. -/
theorem delivery_lost_of_bare_error : ∃ w : State String × List (Output String),
    Reach (logged (step ⟨30000, true⟩)) (fun _ => Permitted) (start, []) w ∧
      1 ∈ w.1.handled ∧ ¬ OnePlace w 1 := by
  have hok : ∀ e ∈ parkedRun .bare, ∀ _ : State String × List (Output String), Permitted e := by
    intro e he _
    obtain ⟨event, hevent, rfl⟩ := List.mem_map.mp he
    exact ⟨.returning _, by rintro rfl; simp at hevent⟩
  have hrun : (run (logged (step ⟨30000, true⟩)) anyStep (start, []) (parkedRun .bare)).any
      fun w => 1 ∈ w.1.handled ∧ ¬ OnePlace w 1 := by decide +kernel
  obtain ⟨w, hw, hlost⟩ := (Option.any_eq_true _ _).mp hrun
  exact ⟨w, reach_of_run_of_forall hok hw, of_decide_eq_true hlost⟩

end SequentialProcessor
end RabbitMQ
