import Mathlib.Algebra.Order.WithTop.Untop0
import Mathlib.Algebra.Order.Ring.Unbundled.Rat
import RabbitMQ.Lib.OrderedMap

/-! The codec of messages, from the buffer of a publish to what the callback of a consumer is given.
A string is sent as it is and anything else serialized; what comes back is whatever the content
parses to, or the string it is. -/

namespace RabbitMQ
namespace MessageCodec

/-- A JavaScript string, as its UTF-16 code units. -/
abbrev JsString := List UInt16

def isHigh (unit : UInt16) : Bool := 0xD800 ≤ unit ∧ unit < 0xDC00

def isLow (unit : UInt16) : Bool := 0xDC00 ≤ unit ∧ unit < 0xE000

/-- Every surrogate of the string is in a pair. -/
def wellFormed : JsString → Bool
  | [] => true
  | [unit] => !isHigh unit && !isLow unit
  | unit :: next :: rest =>
    if isHigh unit then isLow next && wellFormed rest
    else !isLow unit && wellFormed (next :: rest)

/-- A JSON value: a string, or one of those that are not. -/
inductive Json (V : Type) where
  | string (s : JsString)
  | value (v : V)
  deriving DecidableEq

/-- What a message can be. -/
inductive Message (V Bytes : Type) where
  | buffer (b : Bytes)
  | undefined
  | json (m : Json V)

/-- What the codec uses of the language and of its standard library. -/
structure Node (V Bytes : Type) where
  length : Bytes → Nat
  /-- `Buffer.from(s, 'utf-8')` -/
  toUtf8 : JsString → Bytes
  /-- `buffer.toString('utf-8')` -/
  ofUtf8 : Bytes → JsString
  gzip : Bytes → Bytes
  /-- `gunzip`: it throws on what `gzip` did not make -/
  gunzip : Bytes → Option Bytes
  /-- `JSON.stringify` of what is not a string: it may throw -/
  stringify : V → Option JsString
  /-- `JSON.parse`: it throws on a string that is not JSON -/
  parse : JsString → Option (Json V)

/-- `gunzip` undoes `gzip`, decoding undoes encoding, and `JSON.parse` undoes `JSON.stringify`, whose
strings are well formed. -/
structure Node.Inverse {V Bytes : Type} (node : Node V Bytes) : Prop where
  gunzip_gzip : ∀ b, node.gunzip (node.gzip b) = some b
  ofUtf8_toUtf8 : ∀ s, wellFormed s → node.ofUtf8 (node.toUtf8 s) = s
  parse_stringify : ∀ v, ∃ s, node.stringify v = some s ∧ wellFormed s ∧
    node.parse s = some (.value v)

/-- The fields of `MessageCodec`. -/
structure Codec (V : Type) where
  serializer : V → Option JsString
  deserializer : JsString → Option (Json V)
  useCompression : Bool
  compressionThreshold : WithTop ℚ

inductive EncodeError where
  /-- 'Message must not be undefined.' -/
  | undefined
  /-- what the serializer threw -/
  | serializer
  deriving DecidableEq

inductive DecodeError where
  /-- 'Failed to decompress message: …' -/
  | gunzip
  deriving DecidableEq

variable {V Bytes : Type}

def toBuffer (node : Node V Bytes) (codec : Codec V) : Message V Bytes → Except EncodeError Bytes
  | .buffer b => .ok b
  | .json (.string s) => .ok (node.toUtf8 s)
  | .undefined => .error .undefined
  | .json (.value v) =>
    match codec.serializer v with
    | some s => .ok (node.toUtf8 s)
    | none => .error .serializer

def fromBuffer (node : Node V Bytes) (codec : Codec V) (buffer : Bytes) : Json V :=
  let str := node.ofUtf8 buffer
  match codec.deserializer str with
  | some m => m
  | none => .string str

structure Encoded (Bytes : Type) where
  content : Bytes
  compressed : Bool
  deriving DecidableEq

/-- `compressIfNeeded`, by whether `gzip` fails. -/
def compressIfNeeded (node : Node V Bytes) (codec : Codec V) (gzipFails : Bool) (buffer : Bytes) :
    Encoded Bytes :=
  if !codec.useCompression ∨ ((node.length buffer : ℚ) : WithTop ℚ) ≤ codec.compressionThreshold then
    ⟨buffer, false⟩
  else if gzipFails then ⟨buffer, false⟩
  else ⟨node.gzip buffer, true⟩

def encode (node : Node V Bytes) (codec : Codec V) (gzipFails : Bool) (message : Message V Bytes) :
    Except EncodeError (Encoded Bytes) :=
  (toBuffer node codec message).map (compressIfNeeded node codec gzipFails)

/-- `#decompress` -/
def decompress (node : Node V Bytes) (buffer : Bytes) : Except DecodeError Bytes :=
  match node.gunzip buffer with
  | some b => .ok b
  | none => .error .gunzip

def decode (node : Node V Bytes) (codec : Codec V) (content : Bytes) (isCompressed : Bool) :
    Except DecodeError (Json V) :=
  if !isCompressed then .ok (fromBuffer node codec content)
  else (decompress node content).map (fromBuffer node codec)

/-! ## Headers -/

inductive HeaderValue where
  | boolean (b : Bool)
  | number (n : ℚ)
  | string (s : String)
  deriving DecidableEq

/-- `Boolean(value)` -/
def HeaderValue.truthy : HeaderValue → Bool
  | .boolean b => b
  | .number n => n ≠ 0
  | .string s => s ≠ ""

/-- The methods that publish what `encode` made. -/
inductive Method where
  | publish
  | publishBatch
  | publishAsync
  | publishAsyncBatch
  | publishDelayed (delayMs : ℚ)
  | request (deadline : ℚ)

def Method.extraHeaders : Method → List (String × HeaderValue)
  | .publish | .publishBatch => []
  | .publishAsync => [("x-async", .boolean true)]
  | .publishAsyncBatch => [("x-async-batch", .boolean true)]
  | .publishDelayed delayMs => [("x-delay", .number delayMs)]
  | .request deadline => [("x-rpc-deadline", .number deadline)]

/-- The headers of `buildOptions`. -/
def buildHeaders (headers : OrderedMap String HeaderValue) (compressed : Bool)
    (extraHeaders : List (String × HeaderValue)) : OrderedMap String HeaderValue :=
  extraHeaders.foldl (fun headers e => headers.set e.1 e.2)
    (headers.set "x-compressed" (.boolean compressed))

/-- What the consume callback makes of the headers of a delivery. -/
def isCompressed (headers : OrderedMap String HeaderValue) : Bool :=
  (headers.get? "x-compressed").any (·.truthy)

/-- The flag of the encoder reaches the decoder, whatever headers the caller sets. -/
theorem isCompressed_buildHeaders (headers : OrderedMap String HeaderValue) (compressed : Bool)
    (method : Method) :
    isCompressed (buildHeaders headers compressed method.extraHeaders) = compressed := by
  have hflag : (headers.set "x-compressed" (.boolean compressed)).get? "x-compressed" =
      some (.boolean compressed) := by
    rw [OrderedMap.get?_set, if_pos rfl]
  have hextra : ∀ {k v}, k ≠ "x-compressed" →
      ((headers.set "x-compressed" (.boolean compressed)).set k v).get? "x-compressed" =
        some (.boolean compressed) := by
    intro k v hne
    rw [OrderedMap.get?_set, if_neg (Ne.symm hne), hflag]
  have hget : (buildHeaders headers compressed method.extraHeaders).get? "x-compressed" =
      some (.boolean compressed) := by
    cases method with
    | publish | publishBatch => exact hflag
    | publishAsync => exact hextra (k := "x-async") (by decide)
    | publishAsyncBatch => exact hextra (k := "x-async-batch") (by decide)
    | publishDelayed => exact hextra (k := "x-delay") (by decide)
    | request => exact hextra (k := "x-rpc-deadline") (by decide)
  rw [isCompressed, hget]
  rfl

/-! ## The way of a message -/

/-- What is received of a message that is published: the settings of the two ends may differ. -/
def received (node : Node V Bytes) (sender receiver : Codec V) (gzipFails : Bool) (method : Method)
    (headers : OrderedMap String HeaderValue) (message : Message V Bytes) :
    Option (Except DecodeError (Json V)) :=
  match encode node sender gzipFails message with
  | .error _ => none
  | .ok encoded =>
    some (decode node receiver encoded.content
      (isCompressed (buildHeaders headers encoded.compressed method.extraHeaders)))

/-- Compressed or not, and whether or not `gzip` fails, the buffer of the encoder is the one that is
read. -/
theorem decode_compressIfNeeded {node : Node V Bytes} (hnode : node.Inverse)
    (sender receiver : Codec V) (gzipFails : Bool) (buffer : Bytes) :
    decode node receiver (compressIfNeeded node sender gzipFails buffer).content
        (compressIfNeeded node sender gzipFails buffer).compressed =
      .ok (fromBuffer node receiver buffer) := by
  unfold compressIfNeeded
  split
  · rfl
  · split
    · rfl
    · dsimp only
      rw [decode, if_neg (by simp), decompress, hnode.gunzip_gzip]
      rfl

theorem received_of_toBuffer {node : Node V Bytes} (hnode : node.Inverse)
    (sender receiver : Codec V) (gzipFails : Bool) (method : Method)
    (headers : OrderedMap String HeaderValue) {message : Message V Bytes} {buffer : Bytes}
    (h : toBuffer node sender message = .ok buffer) :
    received node sender receiver gzipFails method headers message =
      some (.ok (fromBuffer node receiver buffer)) := by
  rw [received, encode, h]
  change some (decode node receiver (compressIfNeeded node sender gzipFails buffer).content
    (isCompressed (buildHeaders headers (compressIfNeeded node sender gzipFails buffer).compressed
      method.extraHeaders))) = _
  rw [isCompressed_buildHeaders, decode_compressIfNeeded hnode]

/-- The default serializer and deserializer. -/
structure Codec.Default (codec : Codec V) (node : Node V Bytes) : Prop where
  serializer : codec.serializer = node.stringify
  deserializer : codec.deserializer = node.parse

/-- What is read of a JSON value: a string that is itself JSON reads as what it denotes. -/
def readBack (node : Node V Bytes) : Json V → Json V
  | .value v => .value v
  | .string s => (node.parse s).getD (.string s)

/-- A JSON value is read as it was sent, and so is a string, unless it is itself JSON. -/
theorem received_eq_readBack {node : Node V Bytes} (hnode : node.Inverse)
    {sender receiver : Codec V} (hsender : sender.Default node) (hreceiver : receiver.Default node)
    (gzipFails : Bool) (method : Method) (headers : OrderedMap String HeaderValue) (m : Json V)
    (hm : ∀ s, m = .string s → wellFormed s) :
    received node sender receiver gzipFails method headers (.json m) =
      some (.ok (readBack node m)) := by
  cases m with
  | string s =>
    have hbuffer : toBuffer node sender (.json (.string s)) = .ok (node.toUtf8 s) := rfl
    rw [received_of_toBuffer hnode sender receiver gzipFails method headers hbuffer, fromBuffer, hreceiver.deserializer, hnode.ofUtf8_toUtf8 s (hm s rfl), readBack]
    cases node.parse s <;> rfl
  | value v =>
    obtain ⟨s, hs, hformed, hparse⟩ := hnode.parse_stringify v
    have hbuffer : toBuffer node sender (.json (.value v)) = .ok (node.toUtf8 s) := by
      rw [toBuffer, hsender.serializer, hs]
    rw [received_of_toBuffer hnode sender receiver gzipFails method headers hbuffer, fromBuffer,
      hreceiver.deserializer, hnode.ofUtf8_toUtf8 s hformed, hparse]
    rfl

/-! ## Of booleans -/

/-- The units of a text. -/
def units (text : String) : JsString := text.toList.map fun c => UInt16.ofNat c.toNat

/-- The standard library on the booleans: of ASCII strings the bytes are the code units. -/
def ascii : Node Bool (List UInt16) where
  length := List.length
  toUtf8 := id
  ofUtf8 := id
  gzip b := 0x1F :: 0x8B :: b
  gunzip
    | 0x1F :: 0x8B :: b => some b
    | _ => none
  stringify b := some (units (if b then "true" else "false"))
  parse s := if s = units "true" then some (.value true)
    else if s = units "false" then some (.value false) else none

theorem ascii_inverse : ascii.Inverse where
  gunzip_gzip _ := rfl
  ofUtf8_toUtf8 _ _ := rfl
  parse_stringify v := by
    cases v with
    | true => exact ⟨units "true", rfl, by decide, rfl⟩
    | false => exact ⟨units "false", rfl, by decide, rfl⟩

/-- The default codec, with a threshold for compression. -/
def Node.codec (node : Node V Bytes) (useCompression : Bool) (threshold : ℚ) : Codec V :=
  ⟨node.stringify, node.parse, useCompression, threshold⟩

theorem received_eq_readBack_compressed :
    received ascii (ascii.codec true 2) (ascii.codec false 1000) false .publish .empty
        (.json (.string (units "text"))) = some (.ok (.string (units "text"))) ∧
      received ascii (ascii.codec true 2) (ascii.codec false 1000) true .publishAsync .empty
        (.json (.value true)) = some (.ok (.value true)) :=
  ⟨received_eq_readBack ascii_inverse ⟨rfl, rfl⟩ ⟨rfl, rfl⟩ false .publish .empty _
      (fun s hs => by cases hs; decide),
    received_eq_readBack ascii_inverse ⟨rfl, rfl⟩ ⟨rfl, rfl⟩ true .publishAsync .empty _ nofun⟩

/-- The string 'true' is not read as it was sent. -/
theorem received_string_as_value : ascii.Inverse ∧
    received ascii (ascii.codec false 1000) (ascii.codec false 1000) false .publish .empty
      (.json (.string (units "true"))) ≠ some (.ok (.string (units "true"))) :=
  ⟨ascii_inverse, by decide +kernel⟩

end MessageCodec
end RabbitMQ
