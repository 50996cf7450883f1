import Mathlib.Data.List.Range
import RabbitMQ.Utils.DescribeError

/-! The `emit` of the client and of its connection: every listener is called in its own `try`, and what
it throws is reported to the logger. -/

namespace RabbitMQ
namespace EmitSafely

/-- What a listener does when it is called. -/
inductive Outcome where
  /-- it returns nothing that has a `then` -/
  | returns
  /-- it returns a promise, or another thenable that keeps the handler for later -/
  | pending
  /-- it returns a thenable that calls the handler at once, and lets through what that throws -/
  | rejects (error : Value)
  /-- it throws, or its result does when `then` is read or called -/
  | throws (error : Value)

/-- What a call of `emit` did: the listeners that it invoked, its log lines, and how it ended. -/
structure Emission where
  invoked : List Nat
  logged : List String
  result : Except Value Bool

/-- `report` -/
def report (event : String) (error : Value) : Except Value String :=
  (describedText error).map fun shown => "A '" ++ event ++ "' listener threw: " ++ shown

/-- One turn of the loop: the `catch` block also sees what the handler of a thenable throws. -/
def Outcome.contain (event : String) : Outcome → Except Value (List String)
  | .returns | .pending => .ok []
  | .throws error => (report event error).map fun line => [line]
  | .rejects error =>
    match report event error with
    | .ok line => .ok [line]
    | .error e => (report event e).map fun line => [line]

/-- A turn of the loop of Node's own `emit`. -/
def Outcome.raw : Outcome → Except Value (List String)
  | .throws error => .error error
  | _ => .ok []

/-- The loop over the listeners, from this one on; what a turn throws ends it. -/
def loop (turn : Outcome → Except Value (List String)) (any : Bool) :
    Nat → List Outcome → Emission
  | _, [] => ⟨[], [], .ok any⟩
  | i, outcome :: rest =>
    match turn outcome with
    | .error e => ⟨[i], [], .error e⟩
    | .ok lines =>
      let after := loop turn any (i + 1) rest
      ⟨i :: after.invoked, lines ++ after.logged, after.result⟩

def emitSafely (event : String) (listeners : List Outcome) : Emission :=
  loop (Outcome.contain event) (!listeners.isEmpty) 0 listeners

/-- `EventEmitter.emit('error', …)` throws its argument when nobody listens. -/
def emitError (argument : Value) (listeners : List Outcome) : Emission :=
  if listeners.isEmpty then ⟨[], [], .error argument⟩ else loop Outcome.raw true 0 listeners

/-- `emit` -/
def emit (event : String) (argument : Value) (listeners : List Outcome) : Emission :=
  if event = "error" then emitError argument listeners else emitSafely event listeners

/-- Every listener was invoked once, in order, and `emit` returned. -/
structure Emission.Complete (e : Emission) (listeners : List Outcome) : Prop where
  invoked : e.invoked = List.range listeners.length
  returned : ∃ any, e.result = .ok any

/-- What the listener does reaches the logger. -/
def Outcome.Contained : Outcome → Prop
  | .returns | .pending => True
  | .throws error => Describable error
  | .rejects error => ∀ e, describedText error = .error e → Describable e

def Outcome.returnsNormally : Outcome → Bool
  | .throws _ => false
  | _ => true

/-- What lets `emit` get through its listeners. -/
def Containable (event : String) (listeners : List Outcome) : Prop :=
  if event = "error" then listeners ≠ [] ∧ ∀ outcome ∈ listeners, outcome.returnsNormally
  else ∀ outcome ∈ listeners, outcome.Contained

variable {event : String} {error : Value} {listeners : List Outcome}

theorem report_isOk : (∃ line, report event error = .ok line) ↔ Describable error := by
  unfold report Describable
  cases describedText error with
  | error e => exact iff_of_false (fun ⟨_, h⟩ => nomatch h) Bool.false_ne_true
  | ok shown => exact iff_of_true ⟨_, rfl⟩ rfl

theorem Outcome.contain_isOk (outcome : Outcome) :
    (∃ lines, outcome.contain event = .ok lines) ↔ outcome.Contained := by
  have hthrows : ∀ error, (∃ lines, (report event error).map (fun line => [line]) = .ok lines) ↔
      Describable error := by
    intro error
    rw [← report_isOk]
    cases report event error with
    | error e => exact iff_of_false (fun ⟨_, h⟩ => nomatch h) fun ⟨_, h⟩ => nomatch h
    | ok line => exact iff_of_true ⟨_, rfl⟩ ⟨_, rfl⟩
  cases outcome with
  | returns | pending => exact iff_of_true ⟨_, rfl⟩ trivial
  | throws error => exact hthrows error
  | rejects error =>
    simp only [contain, Contained]
    cases hshown : describedText error with
    | ok shown =>
      have hreport : report event error = .ok ("A '" ++ event ++ "' listener threw: " ++ shown) := by
        rw [report, hshown]
        rfl
      rw [hreport]
      exact iff_of_true ⟨_, rfl⟩ nofun
    | error e =>
      have hreport : report event error = .error e := by
        rw [report, hshown]
        rfl
      rw [hreport]
      refine (hthrows e).trans ⟨fun h e' he => Except.error.inj he ▸ h, fun h => h e rfl⟩

/-- The loop gets through if and only if no turn throws. -/
theorem loop_complete (turn : Outcome → Except Value (List String)) (any : Bool) (i : Nat)
    (listeners : List Outcome) :
    ((loop turn any i listeners).invoked = List.range' i listeners.length ∧
        ∃ any', (loop turn any i listeners).result = .ok any') ↔
      ∀ outcome ∈ listeners, ∃ lines, turn outcome = .ok lines := by
  induction listeners generalizing i with
  | nil => exact iff_of_true ⟨rfl, any, rfl⟩ nofun
  | cons outcome rest ih =>
    rw [List.forall_mem_cons, ← ih (i + 1), loop]
    cases turn outcome with
    | error e => exact iff_of_false (fun ⟨_, _, h⟩ => nomatch h) fun ⟨⟨_, h⟩, _⟩ => nomatch h
    | ok lines =>
      dsimp only
      rw [List.length_cons, List.range'_succ, List.cons.injEq]
      exact ⟨fun ⟨⟨_, h⟩, hr⟩ => ⟨⟨_, rfl⟩, h, hr⟩, fun ⟨_, h, hr⟩ => ⟨⟨rfl, h⟩, hr⟩⟩

theorem Outcome.raw_isOk (outcome : Outcome) :
    (∃ lines, outcome.raw = .ok lines) ↔ outcome.returnsNormally := by
  cases outcome with
  | throws error => exact iff_of_false (fun ⟨_, h⟩ => nomatch h) Bool.false_ne_true
  | _ => exact iff_of_true ⟨_, rfl⟩ rfl

/-- `emit` gets through its listeners if and only if the log lines can render what they throw, or, for
an 'error', if somebody listens and nobody throws. -/
theorem emit_complete_iff (event : String) (argument : Value) (listeners : List Outcome) :
    (emit event argument listeners).Complete listeners ↔ Containable event listeners := by
  have hloop : ∀ turn any, (loop turn any 0 listeners).Complete listeners ↔
      ∀ outcome ∈ listeners, ∃ lines, turn outcome = .ok lines := by
    intro turn any
    rw [← loop_complete turn any 0, ← List.range_eq_range']
    exact ⟨fun h => ⟨h.invoked, h.returned⟩, fun h => ⟨h.1, h.2⟩⟩
  unfold emit Containable
  split
  · unfold emitError
    split
    · next hnone =>
      exact iff_of_false (fun ⟨_, _, h⟩ => nomatch h) fun h => h.1 (List.isEmpty_iff.mp hnone)
    · next hsome =>
      rw [hloop]
      simp only [Outcome.raw_isOk]
      exact ⟨fun h => ⟨fun hnone => hsome (List.isEmpty_iff.mpr hnone), h⟩, And.right⟩
  · rw [emitSafely, hloop]
    simp only [Outcome.contain_isOk]

end EmitSafely
end RabbitMQ
