/-! The values JavaScript code can throw, as far as the library looks at them: `describeError`
reads `message` and falls back to `String(error)`, the retry policy reads `retryable`. Every one of
these reads runs code of the thrown value and may itself throw. -/

namespace RabbitMQ

/-- A JavaScript value. Of an object only what the library reads is kept: the properties `message`
and `retryable`, and its conversion to a string; an `error` there is what the getter or the
conversion throws. -/
inductive Value where
  | undefined
  | null
  | boolean (b : Bool)
  | number (shown : String)
  | bigint (shown : String)
  | string (s : String)
  | symbol (shown : String)
  | object (message retryable : Except Value Value) (text : Except Value String)

namespace Value

/-- `new Error(message)`. -/
def error (message : String) : Value :=
  .object (.ok (.string message)) (.ok .undefined) (.ok s!"Error: {message}")

/-- The engine's own `TypeError`. -/
def typeError (message : String) : Value :=
  .object (.ok (.string message)) (.ok .undefined) (.ok s!"TypeError: {message}")

/-- `Object.create(null)`: no properties and no conversion to a string. -/
def bare : Value :=
  .object (.ok .undefined) (.ok .undefined)
    (.error (typeError "Cannot convert object to primitive value"))

/-- `error?.message`. -/
def message? : Value → Except Value Value
  | .object message _ _ => message
  | _ => .ok .undefined

/-- `error?.retryable`. -/
def retryable? : Value → Except Value Value
  | .object _ retryable _ => retryable
  | _ => .ok .undefined

/-- What a template literal makes of a value. -/
def toText : Value → Except Value String
  | .undefined => .ok "undefined"
  | .null => .ok "null"
  | .boolean b => .ok (if b then "true" else "false")
  | .number shown | .bigint shown => .ok shown
  | .string s => .ok s
  | .symbol _ => .error (typeError "Cannot convert a Symbol value to a string")
  | .object _ _ text => text

/-- `String(value)`, which unlike a template literal accepts symbols. -/
def asString : Value → Except Value String
  | .symbol shown => .ok shown
  | v => v.toText

end Value

/-- `error?.message ?? String(error)`. -/
def describeError (error : Value) : Except Value Value :=
  match error.message? with
  | .error e => .error e
  | .ok .undefined | .ok .null => error.asString.map .string
  | .ok message => .ok message

/-- The text of `${describeError(error)}` in a log line. -/
def describedText (error : Value) : Except Value String :=
  match describeError error with
  | .error e => .error e
  | .ok shown => shown.toText

/-- A thrown value that the log lines can render. -/
def Describable (error : Value) : Prop := (describedText error).isOk

instance (error : Value) : Decidable (Describable error) :=
  inferInstanceAs (Decidable (_ = true))

theorem Describable.text (h : Describable error) : ∃ text, describedText error = .ok text := by
  unfold Describable at h
  cases hd : describedText error with
  | ok text => exact ⟨text, rfl⟩
  | error e => simp [hd, Except.isOk, Except.toBool] at h

theorem describable_error (message : String) : Describable (.error message) := rfl

end RabbitMQ
