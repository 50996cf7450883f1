import RabbitMQ.Lib.OrderedMap
import RabbitMQ.Lib.Transition
import RabbitMQ.Consumers.RetryPolicy

/-! The dependency-ordering processor behind `subscribeSequential`.

Every method runs without interruption up to its first `await`, so a step here is the code between
two awaits: a delivery entering `handle`, a callback that settled, one turn of the loop of
`#processDependents`, a sweep. What is suspended in between is kept as one call stack for each
delivery handed to `handle` (`calls`): its top frame waits for a callback or is about to take the
next turn of its loop, the frames below wait for the `handle` call their loop has made.

`onSuccess`, `shouldRequeue` and `onFailure` are the options of the constructor; what they return
or throw during a step is an input of that step (`Hooks`). -/

namespace RabbitMQ
namespace SequentialProcessor

variable {α : Type}

structure Config where
  staleTimeout : Nat
  /-- Whether a logger was given: without one the log lines are not even rendered. -/
  logger : Bool

/-- What the injected callbacks do during one step. -/
structure Hooks (α : Type) where
  onSuccess : Message α → Except Value Unit
  shouldRequeue : Message α → Value → Except Value Bool
  onFailure : Message α → Value → Except Value Unit

/-- An entry of `pending`. -/
structure Parked (α : Type) where
  message : Message α
  dependsOn : α
  queuedAt : Nat

inductive Stage (α : Type) where
  /-- `await this.callback(content, message)` -/
  | callback
  /-- in the loop of `#processDependents`, with these ids still to visit -/
  | dependents (remaining : List α)

/-- A suspended call of `#process`. -/
structure Frame (α : Type) where
  message : Message α
  startTime : Nat
  stage : Stage α

structure State (α : Type) where
  now : Nat
  processing : OrderedMap α Nat
  pending : OrderedMap α (Parked α)
  pendingByDependency : OrderedMap α (OrderedMap α Unit)
  /-- The call stacks, under the tag of the delivery `handle` was called with. -/
  calls : OrderedMap Nat (List (Frame α))
  /-- The sweep is armed until `dispose`. -/
  disposed : Bool
  /-- The tags of the deliveries passed to `handle` so far. -/
  handled : List Nat

/-- The second argument of `onSuccess` and the fourth of `onFailure`. -/
inductive Meta where
  | duplicate
  | ran (durationMs : Nat)
  | expired
  deriving DecidableEq

/-- Why an entry left `processing` or `pending`. -/
inductive Cause where
  | success
  | failure
  | expired
  | released
  deriving DecidableEq

/-- What a step shows to the outside, in order. `removed` records that an entry left `processing`
or `pending`, and `visited` that a release loop took an id: the loop of the call that has `depth`
others below it on the stack of `root`. -/
inductive Output (α : Type) where
  | callback (message : Message α)
  | onSuccess (message : Message α) (info : Meta)
  | onFailure (message : Message α) (error : Value) (requeue : Bool) (info : Meta)
  | removed (id : α) (cause : Cause)
  | visited (root depth : Nat) (id : α)
  /-- the promise of `handle` settled -/
  | handled (root : Nat) (result : Except Value Unit)
  /-- the sweep took a delivery out of `pending`, and the policy threw on it -/
  | undecided (message : Message α)
  /-- an exception left the sweep -/
  | sweepFailed (error : Value)

/-- How far a call of `handle` got before it returned or suspended. -/
inductive Progress (α : Type) where
  | resolved
  | rejected (error : Value)
  | running (frame : Frame α)

def Progress.returned : Except Value Unit → Progress α
  | .ok _ => .resolved
  | .error e => .rejected e

def start : State α := ⟨0, .empty, .empty, .empty, .empty, false, []⟩

/-- `this.logger?.error(...${describeError(error)})`: rendering the line may throw. -/
def Config.logError (c : Config) (error : Value) : Except Value Unit :=
  if c.logger then (describedText error).map fun _ => () else .ok ()

variable [DecidableEq α]

namespace State

/-- The dependency a delivery has to wait for, if any. -/
def unresolved (s : State α) : Option α → Option α
  | none => none
  | some dependsOn =>
    if dependsOn ∈ s.processing ∨ dependsOn ∈ s.pending then some dependsOn else none

def indexPending (s : State α) (messageId dependsOn : α) : State α :=
  let dependents := (s.pendingByDependency.get? dependsOn).getD .empty
  { s with
    pendingByDependency := s.pendingByDependency.set dependsOn (dependents.set messageId ()) }

def removePending (s : State α) (messageId dependsOn : α) : State α :=
  let s := { s with pending := s.pending.erase messageId }
  match s.pendingByDependency.get? dependsOn with
  | none => s
  | some dependents =>
    let dependents := dependents.erase messageId
    if dependents.entries.isEmpty then
      { s with pendingByDependency := s.pendingByDependency.erase dependsOn }
    else
      { s with pendingByDependency := s.pendingByDependency.set dependsOn dependents }

/-- `this.pending.set(...)` followed by `#indexPending`. -/
def park (s : State α) (messageId dependsOn : α) (message : Message α) : State α :=
  { s with pending := s.pending.set messageId ⟨message, dependsOn, s.now⟩ }.indexPending
    messageId dependsOn

/-- `this.processing.delete(messageId)`; deleting `undefined` is a no-op. -/
def removeProcessing (s : State α) (messageId : Option α) (cause : Cause) :
    State α × List (Output α) :=
  match messageId with
  | none => (s, [])
  | some id =>
    ({ s with processing := s.processing.erase id },
      if id ∈ s.processing then [.removed id cause] else [])

/-- `#process` up to its callback. -/
def process (s : State α) (message : Message α) : State α × Frame α :=
  ({ s with
      processing := match message.messageId with
        | none => s.processing
        | some id => s.processing.set id s.now },
    ⟨message, s.now, .callback⟩)

/-- The head of `#processDependents`: the ids to visit, whose index entry is dropped. -/
def takeDependents (s : State α) (messageId : Option α) : State α × List α :=
  match messageId with
  | none => (s, [])
  | some id =>
    match s.pendingByDependency.get? id with
    | none => (s, [])
    | some dependents =>
      ({ s with pendingByDependency := s.pendingByDependency.erase id }, dependents.keys)

end State

def handle (h : Hooks α) (s : State α) (message : Message α) :
    State α × List (Output α) × Progress α :=
  match message.messageId, s.unresolved message.dependsOn with
  | some messageId, some dependsOn =>
    if messageId ∈ s.pending then
      (s, [.onSuccess message .duplicate], .returned (h.onSuccess message))
    else
      (s.park messageId dependsOn message, [], .resolved)
  | _, _ =>
    let (s, frame) := s.process message
    (s, [.callback message], .running frame)

/-- The `catch` block of `#process`. -/
def processCatch (c : Config) (h : Hooks α) (s : State α) (frame : Frame α) (error : Value) :
    State α × List (Output α) × Except Value Unit :=
  let (s, removed) := s.removeProcessing frame.message.messageId .failure
  match h.shouldRequeue frame.message error with
  | .error e => (s, removed, .error e)
  | .ok requeue =>
    match c.logError error with
    | .error e => (s, removed, .error e)
    | .ok _ =>
      (s, removed ++ [.onFailure frame.message error requeue (.ran (s.now - frame.startTime))],
        h.onFailure frame.message error)

/-- A call settled: the frames that await it resume. A rejection is caught by the `#process` whose
loop made the call, and travels on when that `catch` block throws in turn. -/
def settle (c : Config) (h : Hooks α) (root : Nat) :
    State α → Except Value Unit → List (Frame α) → State α × List (Output α)
  | s, result, [] => ({ s with calls := s.calls.erase root }, [.handled root result])
  | s, .ok _, stack => ({ s with calls := s.calls.set root stack }, [])
  | s, .error e, frame :: rest =>
    let (s, out, result) := processCatch c h s frame e
    let (s, out') := settle c h root s result rest
    (s, out ++ out')

/-- `await this.callback(content, message)` returned. -/
def callbackResolved (c : Config) (h : Hooks α) (s : State α) (root : Nat) (frame : Frame α)
    (rest : List (Frame α)) : State α × List (Output α) :=
  let (s, removed) := s.removeProcessing frame.message.messageId .success
  let out := removed ++ [.onSuccess frame.message (.ran (s.now - frame.startTime))]
  match h.onSuccess frame.message with
  | .error e =>
    let (s, out') := settle c h root s (.error e) (frame :: rest)
    (s, out ++ out')
  | .ok _ =>
    let (s, remaining) := s.takeDependents frame.message.messageId
    ({ s with calls := s.calls.set root ({ frame with stage := .dependents remaining } :: rest) },
      out)

/-- One turn of the loop of `#processDependents`. -/
def processDependent (c : Config) (h : Hooks α) (s : State α) (root : Nat) (frame : Frame α)
    (pendingId : α) (remaining : List α) (rest : List (Frame α)) : State α × List (Output α) :=
  let stack := { frame with stage := .dependents remaining } :: rest
  match s.pending.get? pendingId with
  | none => ({ s with calls := s.calls.set root stack }, [.visited root rest.length pendingId])
  | some pendingData =>
    let s := { s with pending := s.pending.erase pendingId }
    let (s, out, progress) := handle h s pendingData.message
    let (s, out') := match progress with
      | .resolved => settle c h root s (.ok ()) stack
      | .rejected e => settle c h root s (.error e) stack
      | .running child => ({ s with calls := s.calls.set root (child :: stack) }, [])
    (s, .visited root rest.length pendingId :: .removed pendingId .released :: out ++ out')

/-- What a parked delivery is failed with when it expires. -/
def Parked.expiry [ToString α] (data : Parked α) : Value :=
  .error s!"Dependency {data.dependsOn} was never resolved"

/-- The second loop of `cleanup`, over the entries of `pending`. -/
def sweepPending [ToString α] (c : Config) (h : Hooks α) :
    List (α × Parked α) → State α → State α × List (Output α)
  | [], s => (s, [])
  | (messageId, data) :: entries, s =>
    if c.staleTimeout < s.now - data.queuedAt then
      let s := s.removePending messageId data.dependsOn
      match h.shouldRequeue data.message data.expiry with
      | .error e => (s, [.removed messageId .expired, .undecided data.message, .sweepFailed e])
      | .ok requeue =>
        let out := [.removed messageId .expired,
          .onFailure data.message data.expiry requeue .expired]
        match h.onFailure data.message data.expiry with
        | .error e => (s, out ++ [.sweepFailed e])
        | .ok _ =>
          let (s, out') := sweepPending c h entries s
          (s, out ++ out')
    else sweepPending c h entries s

/-- The first loop of `cleanup`, over the entries of `processing`. -/
def sweepProcessing (c : Config) (s : State α) : State α × List (Output α) :=
  let stale := fun startTime => decide (c.staleTimeout < s.now - startTime)
  ({ s with processing := s.processing.filter fun _ startTime => !stale startTime },
    (s.processing.filter fun _ startTime => stale startTime).keys.map fun id =>
      .removed id .expired)

def cleanup [ToString α] (c : Config) (h : Hooks α) (s : State α) : State α × List (Output α) :=
  let (s, out) := sweepProcessing c s
  let (s, out') := sweepPending c h s.pending.entries s
  (s, out ++ out')

def dispose (s : State α) : State α :=
  { s with
    processing := .empty
    pending := .empty
    pendingByDependency := .empty
    disposed := true }

/-- A delivery enters `handle` from the consume pipeline. -/
def deliver (h : Hooks α) (s : State α) (message : Message α) : State α × List (Output α) :=
  let s := { s with handled := message.tag :: s.handled }
  let (s, out, progress) := handle h s message
  match progress with
  | .resolved => (s, out ++ [.handled message.tag (.ok ())])
  | .rejected e => (s, out ++ [.handled message.tag (.error e)])
  | .running frame => ({ s with calls := s.calls.set message.tag [frame] }, out)

inductive Event (α : Type) where
  /-- `handle` is called with a new delivery -/
  | handle (message : Message α)
  | callbackResolved (root : Nat)
  | callbackRejected (root : Nat) (error : Value)
  /-- the loop of `#processDependents` resumes: its next turn, or its end -/
  | processDependents (root : Nat)
  | cleanup
  | dispose
  | tick (elapsed : Nat)

def step [ToString α] (c : Config) (s : State α) (input : Hooks α × Event α) :
    Option (State α × List (Output α)) :=
  let (h, event) := input
  match event with
  | .handle message => if message.tag ∈ s.handled then none else some (deliver h s message)
  | .callbackResolved root =>
    match s.calls.get? root with
    | some (⟨message, startTime, .callback⟩ :: rest) =>
      some (callbackResolved c h s root ⟨message, startTime, .callback⟩ rest)
    | _ => none
  | .callbackRejected root error =>
    match s.calls.get? root with
    | some (⟨message, startTime, .callback⟩ :: rest) =>
      some (settle c h root s (.error error) (⟨message, startTime, .callback⟩ :: rest))
    | _ => none
  | .processDependents root =>
    match s.calls.get? root with
    | some (⟨_, _, .dependents []⟩ :: rest) => some (settle c h root s (.ok ()) rest)
    | some (⟨message, startTime, .dependents (pendingId :: remaining)⟩ :: rest) =>
      some (processDependent c h s root ⟨message, startTime, .dependents (pendingId :: remaining)⟩
        pendingId remaining rest)
    | _ => none
  | .cleanup => if s.disposed then none else some (cleanup c h s)
  | .dispose => some (dispose s, [])
  | .tick elapsed => some ({ s with now := s.now + elapsed }, [])

/-- What a call of `handle` can do before it returns or suspends. -/
inductive Handles (h : Hooks α) (s : State α) (message : Message α) :
    State α × List (Output α) × Progress α → Prop
  | duplicate {messageId} (hid : message.messageId = some messageId)
      (hp : messageId ∈ s.pending) :
      Handles h s message
        (s, [.onSuccess message .duplicate], .returned (h.onSuccess message))
  | parks {messageId dependsOn} (hid : message.messageId = some messageId)
      (hd : s.unresolved message.dependsOn = some dependsOn) (hp : messageId ∉ s.pending) :
      Handles h s message (s.park messageId dependsOn message, [], .resolved)
  | runs (hfree : message.messageId = none ∨ s.unresolved message.dependsOn = none) :
      Handles h s message
        ((s.process message).1, [.callback message], .running (s.process message).2)

theorem handle_cases (h : Hooks α) (s : State α) (message : Message α) :
    Handles h s message (handle h s message) := by
  unfold handle
  split
  · rename_i hid hd
    split
    · exact .duplicate hid ‹_›
    · exact .parks hid hd ‹_›
  · rename_i hnone
    refine .runs ?_
    cases hid : message.messageId with
    | none => exact .inl rfl
    | some id =>
      cases hd : s.unresolved message.dependsOn with
      | none => exact .inr rfl
      | some d => exact absurd hd (hnone id d hid)

/-! ## What each method leaves alone -/

theorem removeProcessing_frame (s : State α) (messageId : Option α) (cause : Cause) :
    (s.removeProcessing messageId cause).1 =
      { s with processing := (s.removeProcessing messageId cause).1.processing } := by
  cases messageId <;> rfl

theorem removePending_frame (s : State α) (messageId dependsOn : α) :
    s.removePending messageId dependsOn =
      { s with
        pending := s.pending.erase messageId
        pendingByDependency := (s.removePending messageId dependsOn).pendingByDependency } := by
  simp only [State.removePending]
  split
  · rfl
  · split <;> rfl

theorem removePending_pending (s : State α) (messageId dependsOn : α) :
    (s.removePending messageId dependsOn).pending = s.pending.erase messageId := by
  rw [removePending_frame]

/-- The entries that a sweep has still to see are parked when it has taken out the first one. -/
theorem removePending_entries {s : State α} {messageId : α} {data : Parked α}
    {entries : List (α × Parked α)}
    (hl : ∀ e ∈ (messageId, data) :: entries, s.pending.get? e.1 = some e.2)
    (hn : (((messageId, data) :: entries).map Prod.fst).Nodup) (dependsOn : α) :
    ∀ e ∈ entries, (s.removePending messageId dependsOn).pending.get? e.1 = some e.2 := by
  intro e he
  rw [removePending_pending, OrderedMap.get?_erase, if_neg, hl e (List.mem_cons_of_mem _ he)]
  rintro rfl
  exact (List.nodup_cons.mp hn).1 (List.mem_map.mpr ⟨e, he, rfl⟩)

theorem takeDependents_frame (s : State α) (messageId : Option α) :
    (s.takeDependents messageId).1 =
      { s with pendingByDependency := (s.takeDependents messageId).1.pendingByDependency } := by
  cases messageId with
  | none => rfl
  | some id =>
    simp only [State.takeDependents]
    split <;> rfl

theorem Handles.frame {h : Hooks α} {s : State α} {message : Message α}
    {r : State α × List (Output α) × Progress α} (H : Handles h s message r) :
    r.1 = { s with
      processing := r.1.processing
      pending := r.1.pending
      pendingByDependency := r.1.pendingByDependency } := by
  cases H <;> rfl

theorem sweepPending_frame [ToString α] (c : Config) (h : Hooks α) (entries : List (α × Parked α))
    (s : State α) :
    (sweepPending c h entries s).1 = { s with
      pending := (sweepPending c h entries s).1.pending
      pendingByDependency := (sweepPending c h entries s).1.pendingByDependency } := by
  induction entries generalizing s with
  | nil => rfl
  | cons e entries ih =>
    obtain ⟨messageId, data⟩ := e
    simp only [sweepPending]
    split
    · have hremove := removePending_frame s messageId data.dependsOn
      generalize s.removePending messageId data.dependsOn = s₁ at hremove ⊢
      have hrest := ih s₁
      split
      · rw [hremove]
      · split
        · rw [hremove]
        · rw [hrest, hremove]
    · exact ih s

/-- What survives the expiry of an entry survives the sweep of `pending`. -/
theorem sweepPending_keeps [ToString α] {c : Config} {h : Hooks α} {s : State α}
    {P : State α → Prop}
    (hexpire : ∀ {s id data}, P s → s.pending.get? id = some data →
      P (s.removePending id data.dependsOn))
    (entries : List (α × Parked α)) (hs : P s) (hl : ∀ e ∈ entries, s.pending.get? e.1 = some e.2)
    (hn : (entries.map Prod.fst).Nodup) : P (sweepPending c h entries s).1 := by
  induction entries generalizing s with
  | nil => exact hs
  | cons e entries ih =>
    obtain ⟨messageId, data⟩ := e
    have hexpired := hexpire hs (hl _ List.mem_cons_self)
    have hrest := removePending_entries hl hn data.dependsOn
    have hnodup := (List.nodup_cons.mp hn).2
    simp only [sweepPending]
    split
    · split
      · exact hexpired
      · split
        · exact hexpired
        · exact ih hexpired hrest hnodup
    · exact ih hs (fun e he => hl e (List.mem_cons_of_mem _ he)) hnodup

/-! ## Unwinding -/

/-- Whatever the hooks do in the `catch` block, only the entry of the failed delivery goes. -/
theorem processCatch_state (c : Config) (h : Hooks α) (s : State α) (frame : Frame α)
    (error : Value) :
    (processCatch c h s frame error).1 =
      (s.removeProcessing frame.message.messageId .failure).1 := by
  simp only [processCatch]
  cases h.shouldRequeue frame.message error with
  | error e => rfl
  | ok requeue => cases c.logError error <;> rfl

/-- How the `catch` block of `#process` ends. -/
def caught (c : Config) (h : Hooks α) (message : Message α) (error : Value) : Except Value Unit :=
  match h.shouldRequeue message error with
  | .error e => .error e
  | .ok _ =>
    match c.logError error with
    | .error e => .error e
    | .ok _ => h.onFailure message error

theorem processCatch_result (c : Config) (h : Hooks α) (s : State α) (frame : Frame α)
    (error : Value) : (processCatch c h s frame error).2.2 = caught c h frame.message error := by
  simp only [processCatch, caught]
  cases h.shouldRequeue frame.message error with
  | error e => rfl
  | ok requeue => cases c.logError error <;> rfl

/-- The frames that go on when a call on top of the stack settles. -/
def unwind (c : Config) (h : Hooks α) : Except Value Unit → List (Frame α) → List (Frame α)
  | .error e, frame :: rest => unwind c h (caught c h frame.message e) rest
  | _, stack => stack

/-- The stack of `root` when the call on top of this one has returned. -/
def resumed (calls : OrderedMap Nat (List (Frame α))) (root : Nat) (stack : List (Frame α)) :
    OrderedMap Nat (List (Frame α)) :=
  if stack.isEmpty then calls.erase root else calls.set root stack

omit [DecidableEq α] in
theorem get?_resumed (calls : OrderedMap Nat (List (Frame α))) (root : Nat)
    (stack : List (Frame α)) (r : Nat) : (resumed calls root stack).get? r =
      if r = root then (if stack.isEmpty then none else some stack) else calls.get? r := by
  unfold resumed
  by_cases hr : r = root <;> cases stack <;> simp [OrderedMap.get?_erase, OrderedMap.get?_set, hr]

/-- Settling a call resumes the frames that the result leaves, and of the rest of the state takes
entries of deliveries in progress only. By induction on the stack, which a rejection unwinds. -/
theorem settle_frame (c : Config) (h : Hooks α) (root : Nat) (s : State α)
    (result : Except Value Unit) (stack : List (Frame α)) :
    (settle c h root s result stack).1 =
      { s with
        processing := (settle c h root s result stack).1.processing
        calls := resumed s.calls root (unwind c h result stack) } := by
  induction stack generalizing s result with
  | nil => cases result <;> rfl
  | cons frame rest ih =>
    cases result with
    | ok _ => rfl
    | error e =>
      have hframe := removeProcessing_frame s frame.message.messageId .failure
      rw [← processCatch_state c h s frame e] at hframe
      have hrest := ih (processCatch c h s frame e).1 (processCatch c h s frame e).2.2
      simp only [settle, unwind, ← processCatch_result c h s frame e]
      rw [hrest, hframe]

/-- A callback that returned and was reported: its dependents are taken. -/
theorem callbackResolved_ok (c : Config) {h : Hooks α} {s : State α} (root : Nat)
    {frame : Frame α} {rest : List (Frame α)} {u : Unit}
    (hreturn : h.onSuccess frame.message = .ok u) :
    callbackResolved c h s root frame rest =
      let removal := s.removeProcessing frame.message.messageId .success
      let dependents := removal.1.takeDependents frame.message.messageId
      ({ s with
          processing := removal.1.processing
          pendingByDependency := dependents.1.pendingByDependency
          calls := s.calls.set root ({ frame with stage := .dependents dependents.2 } :: rest) },
        removal.2 ++ [.onSuccess frame.message (.ran (s.now - frame.startTime))]) := by
  simp only [callbackResolved, hreturn]
  cases frame.message.messageId with
  | none => rfl
  | some id =>
    simp only [State.removeProcessing, State.takeDependents]
    split <;> rfl

/-- What a step can be, with the code it runs. -/
inductive Steps [ToString α] (c : Config) (h : Hooks α) (s : State α) :
    Event α → State α × List (Output α) → Prop
  | handle {message} (hfresh : message.tag ∉ s.handled) :
      Steps c h s (.handle message) (deliver h s message)
  | callbackResolved {root message startTime rest}
      (hcall : s.calls.get? root = some (⟨message, startTime, .callback⟩ :: rest)) :
      Steps c h s (.callbackResolved root)
        (callbackResolved c h s root ⟨message, startTime, .callback⟩ rest)
  | callbackRejected {root message startTime rest error}
      (hcall : s.calls.get? root = some (⟨message, startTime, .callback⟩ :: rest)) :
      Steps c h s (.callbackRejected root error)
        (settle c h root s (.error error) (⟨message, startTime, .callback⟩ :: rest))
  | loopEnds {root message startTime rest}
      (hcall : s.calls.get? root = some (⟨message, startTime, .dependents []⟩ :: rest)) :
      Steps c h s (.processDependents root) (settle c h root s (.ok ()) rest)
  | loopTurns {root message startTime pendingId remaining rest}
      (hcall : s.calls.get? root =
        some (⟨message, startTime, .dependents (pendingId :: remaining)⟩ :: rest)) :
      Steps c h s (.processDependents root)
        (processDependent c h s root ⟨message, startTime, .dependents (pendingId :: remaining)⟩
          pendingId remaining rest)
  | cleanup (hlive : s.disposed = false) : Steps c h s .cleanup (cleanup c h s)
  | dispose : Steps c h s .dispose (dispose s, [])
  | tick {elapsed} : Steps c h s (.tick elapsed) ({ s with now := s.now + elapsed }, [])

theorem step_cases [ToString α] {c : Config} {s : State α} {input : Hooks α × Event α}
    {r : State α × List (Output α)} (hs : step c s input = some r) :
    Steps c input.1 s input.2 r := by
  obtain ⟨h, event⟩ := input
  cases event with
  | handle message =>
    simp only [step] at hs
    split at hs
    · cases hs
    · cases hs; exact .handle ‹_›
  | callbackResolved root =>
    simp only [step] at hs
    split at hs
    · cases hs; exact .callbackResolved ‹_›
    · cases hs
  | callbackRejected root error =>
    simp only [step] at hs
    split at hs
    · cases hs; exact .callbackRejected ‹_›
    · cases hs
  | processDependents root =>
    simp only [step] at hs
    split at hs
    · cases hs; exact .loopEnds ‹_›
    · cases hs; exact .loopTurns ‹_›
    · cases hs
  | cleanup =>
    simp only [step] at hs
    split at hs
    · cases hs
    · cases hs; exact .cleanup (Bool.eq_false_iff.mpr ‹_›)
  | dispose => cases hs; exact .dispose
  | tick elapsed => cases hs; exact .tick

end SequentialProcessor
end RabbitMQ
