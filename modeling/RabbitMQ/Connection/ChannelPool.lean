import RabbitMQ.Lib.Transition
import RabbitMQ.Lib.OrderedMap

/-! A pool of channels on one connection: a slot for each of the channels that publishers share,
refilled in the background when its channel is lost, and dedicated channels with one owner each.

The broker opens and closes channels at any moment, and a channel may emit `'close'` again. What
awaits an open runs when the channel is there: it is given its listeners before it can be lost. -/

namespace RabbitMQ
namespace ChannelPool

open Transition

def maxReplaceAttempts : Nat := 5

/-- Which listeners a channel has. -/
inductive Role where
  | slot (index : Nat)
  | dedicated (id : Nat)
  deriving DecidableEq

structure Channel where
  role : Role
  /-- it has not emitted `'close'` -/
  live : Bool
  /-- `close()` was called on it -/
  closing : Bool
  deriving DecidableEq

inductive ReplaceStage where
  /-- `await this.#createPoolChannel(index)` -/
  | opening
  /-- the channel is there, and the loop has not resumed -/
  | opened (channel : Nat)
  /-- `await this.clock.sleep(...)` after a failed attempt -/
  | sleeping
  /-- `await this.#closeChannel(channel)` -/
  | discarding (channel : Nat)
  deriving DecidableEq

/-- A call of `#replacePoolChannel`. -/
structure Replacement where
  index : Nat
  attempt : Nat
  stage : ReplaceStage
  deriving DecidableEq

/-- One of the opens that `initialize` awaits. -/
inductive Open where
  | pending
  | fulfilled
  | rejected
  deriving DecidableEq

inductive GetChannelError where
  /-- 'Channel pool is not initialized' -/
  | notInitialized
  /-- 'No usable channels available in the pool' -/
  | noUsableChannels
  deriving DecidableEq

structure State where
  /-- `#channels`: an empty slot holds nothing. -/
  channels : List (Option Nat)
  index : Nat
  dedicatedChannels : OrderedMap Nat Nat
  closed : Bool
  /-- Every channel there ever was. -/
  opened : OrderedMap Nat Channel
  /-- The opens that `initialize` awaits, by slot. -/
  initializing : Option (List Open)
  replacements : List Replacement
  /-- The calls of `getDedicatedChannel` that await a channel, by what they are for. -/
  requests : List Nat
  /-- What the calls of `getDedicatedChannel` returned. -/
  got : List (Nat × Nat)
  /-- The calls of `close`, with the channels they await. -/
  closes : List (List Nat)

/-- `initialize` has sent its opens. -/
def start (size : Nat) : State where
  channels := []
  index := 0
  dedicatedChannels := .empty
  closed := false
  opened := .empty
  initializing := some (.replicate size .pending)
  replacements := []
  requests := []
  got := []
  closes := []

/-- `channels[index] = channel`, on an array that grows. -/
def setSlot (channels : List (Option Nat)) (index : Nat) (channel : Option Nat) :
    List (Option Nat) :=
  if index < channels.length then channels.set index channel
  else channels ++ List.replicate (index - channels.length) none ++ [channel]

namespace State

def slot (s : State) (index : Nat) : Option Nat := s.channels[index]?.join

def live (s : State) (channel : Nat) : Bool := (s.opened.get? channel).any (·.live)

/-- `#createPoolChannel`, when the channel is there: the slot is claimed at once, unless the pool is
closed. -/
def createPoolChannel (s : State) (index channel : Nat) : State :=
  { s with
    opened := s.opened.set channel ⟨.slot index, true, false⟩
    channels := if s.closed then s.channels else setSlot s.channels index (some channel) }

/-- The channel emits `'close'`, and its listener runs. -/
def emitClose (s : State) (channel : Nat) (r : Channel) : State :=
  let s := { s with opened := s.opened.set channel { r with live := false } }
  match r.role with
  | .slot index =>
    if s.closed ∨ s.slot index ≠ some channel then s
    else { s with
      channels := setSlot s.channels index none
      replacements := ⟨index, 1, .opening⟩ :: s.replacements }
  | .dedicated id => { s with dedicatedChannels := s.dedicatedChannels.erase id }

/-- `#closeChannel`: a second `close()` is refused, and the refusal swallowed. -/
def closeChannel (s : State) (channel : Nat) : State :=
  match s.opened.get? channel with
  | some ⟨role, true, false⟩ => { s with opened := s.opened.set channel ⟨role, true, true⟩ }
  | _ => s

/-- `getDedicatedChannel`, up to its await. -/
def getDedicatedChannel (s : State) (id : Nat) : State :=
  match s.dedicatedChannels.get? id with
  | some channel => { s with got := (id, channel) :: s.got }
  | none => { s with requests := id :: s.requests }

/-- `getDedicatedChannel`, when the channel is there. -/
def dedicatedOpens (s : State) (id channel : Nat) : State :=
  { s with
    requests := s.requests.erase id
    opened := s.opened.set channel ⟨.dedicated id, true, false⟩
    dedicatedChannels := s.dedicatedChannels.set id channel
    got := (id, channel) :: s.got }

def releaseDedicatedChannel (s : State) (id : Nat) : State :=
  match s.dedicatedChannels.get? id with
  | none => s
  | some channel =>
    { s with dedicatedChannels := s.dedicatedChannels.erase id }.closeChannel channel

/-- The channels `close` closes: `[...this.channels, ...this.dedicatedChannels.values()]`. -/
def held (s : State) : List Nat :=
  s.channels.filterMap id ++ s.dedicatedChannels.entries.map Prod.snd

/-- `close`, up to its await. -/
def close (s : State) : State :=
  let held := s.held
  let awaited := held.filter fun channel =>
    (s.opened.get? channel).any fun r => r.live && !r.closing
  held.foldl closeChannel { s with closed := true, closes := awaited :: s.closes }

/-- `close`, when every channel is closed. -/
def closeResumes (s : State) (awaited : List Nat) : State :=
  { s with
    closes := s.closes.erase awaited
    channels := []
    index := 0
    dedicatedChannels := .empty }

/-- `initialize`, when every open is settled: it closes the pool if one failed. -/
def initialized (s : State) (opens : List Open) : State :=
  let s := { s with initializing := none }
  if .rejected ∈ opens then s.close else s

/-- A call of `#replacePoolChannel` goes on, or returns. -/
def replace (s : State) (r : Replacement) (next : Option Replacement) : State :=
  { s with replacements := next.toList ++ s.replacements.erase r }

/-- `#replacePoolChannel` after a channel is there. -/
def replaced (s : State) (r : Replacement) (channel : Nat) : State :=
  if s.closed then (s.closeChannel channel).replace r (some { r with stage := .discarding channel })
  else s.replace r none

/-- `#replacePoolChannel` after its sleep: the next turn of the loop, or its end. -/
def slept (s : State) (r : Replacement) : State :=
  s.replace r (if r.attempt + 1 ≤ maxReplaceAttempts ∧ s.closed = false then
    some ⟨r.index, r.attempt + 1, .opening⟩ else none)

/-- The loop of `getChannel`: the next channel in rotation and the index it leaves. -/
def rotate (s : State) : Nat → Nat → Option Nat × Nat
  | 0, index => (none, index)
  | turns + 1, index =>
    let next := (index + 1) % s.channels.length
    match s.slot index with
    | some channel => (some channel, next)
    | none => s.rotate turns next

def getChannel (s : State) : Except GetChannelError Nat × State :=
  if s.channels.length = 0 then (.error .notInitialized, s)
  else match s.rotate s.channels.length s.index with
    | (some channel, index) => (.ok channel, { s with index })
    | (none, index) => (.error .noUsableChannels, { s with index })

end State

inductive Event where
  /-- an open of `initialize` settles -/
  | opens (index channel : Nat)
  | openFails (index : Nat)
  | initialized
  /-- the channel is closed by the broker, or is done closing -/
  | emitsClose (channel : Nat)
  | replacementOpens (r : Replacement) (channel : Nat)
  | replacementFails (r : Replacement)
  /-- the loop resumes after its open, its sleep or its close -/
  | replacementResumes (r : Replacement)
  | getChannel
  | getDedicatedChannel (id : Nat)
  | dedicatedOpens (id channel : Nat)
  | dedicatedFails (id : Nat)
  | releaseDedicatedChannel (id : Nat)
  | close
  | closeResumes (awaited : List Nat)
  deriving DecidableEq

def step (s : State) : Event → Option State
  | .opens index channel =>
    match s.initializing with
    | some opens =>
      if opens[index]? = some .pending ∧ channel ∉ s.opened then
        some ({ s with initializing := some (opens.set index .fulfilled) }.createPoolChannel
          index channel)
      else none
    | none => none
  | .openFails index =>
    match s.initializing with
    | some opens =>
      if opens[index]? = some .pending then
        some { s with initializing := some (opens.set index .rejected) }
      else none
    | none => none
  | .initialized =>
    match s.initializing with
    | some opens => if .pending ∈ opens then none else some (s.initialized opens)
    | none => none
  | .emitsClose channel => (s.opened.get? channel).map (s.emitClose channel)
  | .replacementOpens r channel =>
    if r ∈ s.replacements ∧ r.stage = .opening ∧ channel ∉ s.opened then
      some ((s.createPoolChannel r.index channel).replace r
        (some { r with stage := .opened channel }))
    else none
  | .replacementFails r =>
    if r ∈ s.replacements ∧ r.stage = .opening then
      some (s.replace r (some { r with stage := .sleeping }))
    else none
  | .replacementResumes r =>
    if r ∈ s.replacements then
      match r.stage with
      | .opening => none
      | .opened channel => some (s.replaced r channel)
      | .sleeping => some (s.slept r)
      | .discarding channel => if s.live channel then none else some (s.replace r none)
    else none
  | .getChannel => some s.getChannel.2
  | .getDedicatedChannel id => some (s.getDedicatedChannel id)
  | .dedicatedOpens id channel =>
    if id ∈ s.requests ∧ channel ∉ s.opened then some (s.dedicatedOpens id channel) else none
  | .dedicatedFails id =>
    if id ∈ s.requests then some { s with requests := s.requests.erase id } else none
  | .releaseDedicatedChannel id => some (s.releaseDedicatedChannel id)
  | .close => some s.close
  | .closeResumes awaited =>
    if awaited ∈ s.closes ∧ awaited.all (fun channel => !s.live channel) then
      some (s.closeResumes awaited)
    else none

/-! ## The slots and the channels -/

theorem slot_setSlot (channels : List (Option Nat)) (index j : Nat) (channel : Option Nat) :
    (setSlot channels index channel)[j]?.join =
      if j = index then channel else channels[j]?.join := by
  unfold setSlot
  split
  · next hlt =>
    by_cases hj : j = index
    · subst hj
      simp [hlt]
    · rw [List.getElem?_set_ne (Ne.symm hj), if_neg hj]
  · next hle =>
    rw [List.append_assoc]
    rcases Nat.lt_or_ge j channels.length with hj | hj
    · rw [List.getElem?_append_left hj, if_neg (by omega)]
    · rw [List.getElem?_append_right hj, List.getElem?_eq_none hj]
      rcases Nat.lt_trichotomy j index with hlt | rfl | hgt
      · rw [List.getElem?_append_left (by simpa using by omega), if_neg (by omega),
          List.getElem?_replicate, if_pos (by omega)]
        rfl
      · rw [List.getElem?_append_right (by simp), if_pos rfl]
        simp
      · rw [List.getElem?_eq_none (by simp; omega), if_neg (by omega)]

/-- What a call of `close()` leaves of a channel. -/
def Channel.close (r : Channel) : Channel := { r with closing := r.closing || r.live }

theorem close_close (r : Channel) : r.close.close = r.close := by
  simp [Channel.close]

theorem closeChannel_frame (s : State) (channel : Nat) : ∃ opened,
    s.closeChannel channel = { s with opened } ∧ ∀ k, opened.get? k =
      if k = channel then (s.opened.get? k).map Channel.close else s.opened.get? k := by
  unfold State.closeChannel
  split
  · next role hr =>
    refine ⟨_, rfl, fun k => ?_⟩
    rw [OrderedMap.get?_set]
    split
    · next hk => simp [hk, hr, Channel.close]
    · rfl
  · next hr =>
    refine ⟨s.opened, rfl, fun k => ?_⟩
    split
    · next hk =>
      subst hk
      cases hget : s.opened.get? k with
      | none => rfl
      | some r =>
        obtain ⟨role, live, closing⟩ := r
        cases live with
        | false => simp [Channel.close]
        | true =>
          cases closing with
          | true => simp [Channel.close]
          | false => exact absurd hget (hr role)
    · rfl

theorem closeChannels_frame (held : List Nat) (s : State) : ∃ opened,
    held.foldl State.closeChannel s = { s with opened } ∧ ∀ k, opened.get? k =
      if k ∈ held then (s.opened.get? k).map Channel.close else s.opened.get? k := by
  induction held generalizing s with
  | nil => exact ⟨s.opened, rfl, fun k => (if_neg List.not_mem_nil).symm⟩
  | cons channel held ih =>
    obtain ⟨opened, heq, hget⟩ := closeChannel_frame s channel
    obtain ⟨opened', heq', hget'⟩ := ih (s.closeChannel channel)
    rw [heq] at heq' hget'
    refine ⟨opened', by rw [List.foldl_cons, heq, heq'], fun k => ?_⟩
    rw [hget', hget]
    by_cases hk : k = channel
    · subst hk
      simp only [if_true, List.mem_cons, true_or, Option.map_map, Function.comp_def, close_close,
        ite_self]
    · simp only [List.mem_cons, hk, false_or, if_false]

theorem getChannel_frame (s : State) : ∃ index, s.getChannel.2 = { s with index } := by
  unfold State.getChannel
  split
  · exact ⟨s.index, rfl⟩
  · generalize s.rotate s.channels.length s.index = r
    obtain ⟨channel, index⟩ := r
    cases channel with
    | some channel => exact ⟨index, rfl⟩
    | none => exact ⟨index, rfl⟩

/-- What a step can be, with the code it runs. -/
inductive Steps (s : State) : Event → State → Prop
  | opens {opens index channel} (hinit : s.initializing = some opens)
      (hpending : opens[index]? = some .pending) (hfresh : channel ∉ s.opened) :
      Steps s (.opens index channel)
        (State.createPoolChannel { s with initializing := some (opens.set index .fulfilled) }
          index channel)
  | openFails {opens index} (hinit : s.initializing = some opens)
      (hpending : opens[index]? = some .pending) :
      Steps s (.openFails index) { s with initializing := some (opens.set index .rejected) }
  | initialized {opens} (hinit : s.initializing = some opens) (hsettled : .pending ∉ opens) :
      Steps s .initialized (s.initialized opens)
  | emitsClose {channel r} (hr : s.opened.get? channel = some r) :
      Steps s (.emitsClose channel) (s.emitClose channel r)
  | replacementOpens {index attempt channel} (hmem : ⟨index, attempt, .opening⟩ ∈ s.replacements)
      (hfresh : channel ∉ s.opened) :
      Steps s (.replacementOpens ⟨index, attempt, .opening⟩ channel)
        ((s.createPoolChannel index channel).replace ⟨index, attempt, .opening⟩
          (some ⟨index, attempt, .opened channel⟩))
  | replacementFails {index attempt} (hmem : ⟨index, attempt, .opening⟩ ∈ s.replacements) :
      Steps s (.replacementFails ⟨index, attempt, .opening⟩)
        (s.replace ⟨index, attempt, .opening⟩ (some ⟨index, attempt, .sleeping⟩))
  | replaced {index attempt channel}
      (hmem : ⟨index, attempt, .opened channel⟩ ∈ s.replacements) :
      Steps s (.replacementResumes ⟨index, attempt, .opened channel⟩)
        (s.replaced ⟨index, attempt, .opened channel⟩ channel)
  | slept {index attempt} (hmem : ⟨index, attempt, .sleeping⟩ ∈ s.replacements) :
      Steps s (.replacementResumes ⟨index, attempt, .sleeping⟩)
        (s.slept ⟨index, attempt, .sleeping⟩)
  | discarded {index attempt channel}
      (hmem : ⟨index, attempt, .discarding channel⟩ ∈ s.replacements)
      (hdead : s.live channel = false) :
      Steps s (.replacementResumes ⟨index, attempt, .discarding channel⟩)
        (s.replace ⟨index, attempt, .discarding channel⟩ none)
  | getChannel : Steps s .getChannel s.getChannel.2
  | getDedicatedChannel {id} : Steps s (.getDedicatedChannel id) (s.getDedicatedChannel id)
  | dedicatedOpens {id channel} (hmem : id ∈ s.requests) (hfresh : channel ∉ s.opened) :
      Steps s (.dedicatedOpens id channel) (s.dedicatedOpens id channel)
  | dedicatedFails {id} (hmem : id ∈ s.requests) :
      Steps s (.dedicatedFails id) { s with requests := s.requests.erase id }
  | releaseDedicatedChannel {id} :
      Steps s (.releaseDedicatedChannel id) (s.releaseDedicatedChannel id)
  | close : Steps s .close s.close
  | closeResumes {awaited} (hmem : awaited ∈ s.closes)
      (hdead : ∀ channel ∈ awaited, s.live channel = false) :
      Steps s (.closeResumes awaited) (s.closeResumes awaited)

theorem step_cases {s s' : State} {event : Event} (hs : step s event = some s') :
    Steps s event s' := by
  unfold step at hs
  split at hs
  · split at hs
    · split at hs
      · cases hs; exact .opens ‹_› (And.left ‹_›) (And.right ‹_›)
      · cases hs
    · cases hs
  · split at hs
    · split at hs
      · cases hs; exact .openFails ‹_› ‹_›
      · cases hs
    · cases hs
  · split at hs
    · split at hs
      · cases hs
      · cases hs; exact .initialized ‹_› ‹_›
    · cases hs
  · obtain ⟨r, hr, rfl⟩ := Option.map_eq_some_iff.mp hs
    exact .emitsClose hr
  · next r channel =>
    split at hs
    · next h =>
      obtain ⟨index, attempt, stage⟩ := r
      obtain ⟨hmem, hst, hfresh⟩ := h
      cases hst
      cases hs
      exact .replacementOpens hmem hfresh
    · cases hs
  · next r =>
    split at hs
    · next h =>
      obtain ⟨index, attempt, stage⟩ := r
      obtain ⟨hmem, hst⟩ := h
      cases hst
      cases hs
      exact .replacementFails hmem
    · cases hs
  · next r =>
    obtain ⟨index, attempt, stage⟩ := r
    split at hs
    · next hmem =>
      cases stage with
      | opening => cases hs
      | opened channel => cases hs; exact .replaced hmem
      | sleeping => cases hs; exact .slept hmem
      | discarding channel =>
        dsimp only at hs
        split at hs
        · cases hs
        · next hdead => cases hs; exact .discarded hmem (by simpa using hdead)
    · cases hs
  · cases hs; exact .getChannel
  · cases hs; exact .getDedicatedChannel
  · split at hs
    · next h => cases hs; exact .dedicatedOpens h.1 h.2
    · cases hs
  · split at hs
    · cases hs; exact .dedicatedFails ‹_›
    · cases hs
  · cases hs; exact .releaseDedicatedChannel
  · cases hs; exact .close
  · split at hs
    · next h => cases hs; exact .closeResumes h.1 (by simpa using h.2)
    · cases hs

end ChannelPool
end RabbitMQ
