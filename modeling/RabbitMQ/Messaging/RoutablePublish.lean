import RabbitMQ.Lib.Transition
import RabbitMQ.Lib.OrderedMap
import RabbitMQ.Lib.Update

/-! The publishes of one channel that watch for their return.

A call of `publishWatched` suspends once, until its confirm. `basic.return` is dispatched between the
publish and the confirm of its message, to every `'return'` listener of the channel. A message that
is not a call of this module can come back too, and a return can be malformed. -/

namespace RabbitMQ
namespace RoutablePublish

open Transition

variable {τ : Type}

/-- `options.headers`, as far as the watch reads them: what they carry as `x-return-token`. -/
structure Headers (τ : Type) where
  returnToken : Option τ

/-- `{ ...options.headers, [RETURN_TOKEN_HEADER]: token }` -/
def Headers.guarded (headers : Headers τ) (token : τ) : Headers τ :=
  { headers with returnToken := some token }

/-- A call of `publishWatched`. -/
structure Call (τ : Type) where
  token : τ
  /-- The headers that its message was published with. -/
  headers : Headers τ
  /-- `entry.returned` -/
  returned : Bool
  /-- The broker has returned its message. -/
  handedBack : Bool
  /-- The confirm: whether it came with an error. -/
  refused : Option Bool
  /-- What the promise settled with: a report, or nothing when it was rejected. -/
  result : Option (Option Bool)

structure State (τ : Type) where
  /-- `registries.get(channel)`: the entry of a token, by its call. -/
  registry : Option (OrderedMap τ Nat)
  /-- How many `'return'` listeners the channel has. -/
  listeners : Nat
  calls : List (Call τ)

def start : State τ := ⟨none, 0, []⟩

/-- `registryFor(channel)` -/
def State.registryFor (s : State τ) : OrderedMap τ Nat × State τ :=
  match s.registry with
  | some registry => (registry, s)
  | none => (.empty, { s with registry := some .empty, listeners := s.listeners + 1 })

variable [DecidableEq τ]

/-- `publishWatched`, up to its await. A publish that throws is a refusal. -/
def State.publishWatched (s : State τ) (headers : Headers τ) (token : τ) (throws : Bool) : State τ :=
  let (registry, s) := s.registryFor
  { s with
    registry := some (registry.set token s.calls.length)
    calls := s.calls ++ [{
      token
      headers := headers.guarded token
      returned := false
      handedBack := false
      refused := if throws then some true else none
      result := none }] }

/-- The `'return'` listener. -/
def State.onReturn (s : State τ) (message : Option (Headers τ)) : State τ :=
  match (message.bind (·.returnToken)).bind fun token => s.registry.bind (·.get? token) with
  | none => s
  | some i => { s with calls := s.calls.modify i fun call => { call with returned := true } }

/-- A `basic.return`, dispatched to the listeners. -/
def State.emitReturn (s : State τ) (message : Option (Headers τ)) : State τ :=
  Nat.repeat (fun s : State τ => s.onReturn message) s.listeners s

/-- `publishWatched` after its confirm. -/
def State.settle (s : State τ) (i : Nat) (call : Call τ) (refused : Bool) : State τ :=
  { s with
    registry := s.registry.map (·.erase call.token)
    calls := s.calls.set i { call with
      result := some (if refused then none else some call.returned) } }

inductive Event (τ : Type) where
  | publishWatched (headers : Headers τ) (token : τ) (throws : Bool)
  /-- the broker returns the message of a call -/
  | returns (call : Nat)
  /-- a return of another message; `none` is one without properties or headers -/
  | returnsOther (message : Option (Headers τ))
  | confirms (call : Nat) (refused : Bool)
  /-- the promise of the confirm resumes its call -/
  | settles (call : Nat)

def step (s : State τ) : Event τ → Option (State τ)
  | .publishWatched headers token throws => some (s.publishWatched headers token throws)
  | .returns i =>
    match s.calls[i]? with
    | some call =>
      if call.refused = none ∧ !call.handedBack then
        some ({ s with calls := s.calls.set i { call with handedBack := true } }.emitReturn
          (some call.headers))
      else none
    | none => none
  | .returnsOther message => some (s.emitReturn message)
  | .confirms i refused =>
    match s.calls[i]? with
    | some call =>
      if call.refused = none then
        some { s with calls := s.calls.set i { call with refused := some refused } }
      else none
    | none => none
  | .settles i =>
    match s.calls[i]? with
    | some call =>
      match call.refused with
      | some refused => if call.result = none then some (s.settle i call refused) else none
      | none => none
    | none => none

/-- Tokens are distinct, and no other message carries the one of a call that has not settled. -/
def Distinct (s : State τ) : Event τ → Prop
  | .publishWatched _ token _ => ∀ call ∈ s.calls, call.token ≠ token
  | .returnsOther message => ∀ call ∈ s.calls, call.result = none →
      message.bind (·.returnToken) ≠ some call.token
  | _ => True

instance (s : State τ) : (event : Event τ) → Decidable (Distinct s event)
  | .publishWatched _ token _ => inferInstanceAs (Decidable (∀ call ∈ s.calls, call.token ≠ token))
  | .returnsOther message => inferInstanceAs (Decidable (∀ call ∈ s.calls, call.result = none →
      message.bind (·.returnToken) ≠ some call.token))
  | .returns _ | .confirms _ _ | .settles _ => inferInstanceAs (Decidable True)

/-- What a step can be, with the code it runs. -/
inductive Steps (s : State τ) : Event τ → State τ → Prop
  | publishWatched {headers token throws} :
      Steps s (.publishWatched headers token throws) (s.publishWatched headers token throws)
  | returns {i call} (hi : s.calls[i]? = some call) (hopen : call.refused = none) :
      Steps s (.returns i)
        (State.emitReturn { s with calls := s.calls.set i { call with handedBack := true } }
          (some call.headers))
  | returnsOther {message} : Steps s (.returnsOther message) (s.emitReturn message)
  | confirms {i call refused} (hi : s.calls[i]? = some call) (hopen : call.refused = none) :
      Steps s (.confirms i refused)
        { s with calls := s.calls.set i { call with refused := some refused } }
  | settles {i call refused} (hi : s.calls[i]? = some call) (hrefused : call.refused = some refused)
      (hopen : call.result = none) : Steps s (.settles i) (s.settle i call refused)

theorem step_cases {s t : State τ} {event : Event τ} (hs : step s event = some t) :
    Steps s event t := by
  cases event with
  | publishWatched => cases hs; exact .publishWatched
  | returns i =>
    simp only [step] at hs
    split at hs
    · split at hs
      · next hguard => cases hs; exact .returns ‹_› hguard.1
      · cases hs
    · cases hs
  | returnsOther => cases hs; exact .returnsOther
  | confirms i refused =>
    simp only [step] at hs
    split at hs
    · split at hs
      · cases hs; exact .confirms ‹_› ‹_›
      · cases hs
    · cases hs
  | settles i =>
    simp only [step] at hs
    split at hs
    · split at hs
      · split at hs
        · cases hs; exact .settles ‹_› ‹_› ‹_›
        · cases hs
      · cases hs
    · cases hs

/-! ## What a call keeps -/

/-- What a call has come to stays. -/
structure Call.Kept (call call' : Call τ) : Prop where
  token : call'.token = call.token
  refused : ∀ refused, call.refused = some refused → call'.refused = some refused
  result : ∀ result, call.result = some result → call'.result = some result

omit [DecidableEq τ] in
theorem Call.Kept.refl (call : Call τ) : call.Kept call := ⟨rfl, fun _ => id, fun _ => id⟩

omit [DecidableEq τ] in
theorem Call.Kept.trans {call call' call'' : Call τ} (h : call.Kept call') (h' : call'.Kept call'') :
    call.Kept call'' where
  token := h'.token.trans h.token
  refused refused hrefused := h'.refused refused (h.refused refused hrefused)
  result result hresult := h'.result result (h.result result hresult)

/-- Calls stay where they are. -/
def Keeps (s t : State τ) : Prop :=
  ∀ (i : Nat) (call : Call τ), s.calls[i]? = some call →
    ∃ call', t.calls[i]? = some call' ∧ call.Kept call'

omit [DecidableEq τ] in
theorem Keeps.refl (s : State τ) : Keeps s s := fun _ call hi => ⟨call, hi, .refl call⟩

omit [DecidableEq τ] in
theorem Keeps.trans {s t u : State τ} (h : Keeps s t) (h' : Keeps t u) : Keeps s u := by
  intro i call hi
  obtain ⟨call', hi', hkept⟩ := h i call hi
  obtain ⟨call'', hi'', hkept'⟩ := h' i call' hi'
  exact ⟨call'', hi'', hkept.trans hkept'⟩

omit [DecidableEq τ] in
theorem keeps_set {s t : State τ} {i : Nat} {call call' : Call τ} (hi : s.calls[i]? = some call)
    (hkept : call.Kept call') (ht : t.calls = s.calls.set i call') : Keeps s t := by
  intro j call₀ hj
  rw [ht, List.getElem?_set]
  split
  · next heq =>
    subst heq
    cases hi.symm.trans hj
    rw [if_pos (List.getElem?_eq_some_iff.mp hi).1]
    exact ⟨call', rfl, hkept⟩
  · exact ⟨call₀, hj, .refl call₀⟩

theorem keeps_publishWatched (s : State τ) (headers : Headers τ) (token : τ) (throws : Bool) :
    Keeps s (s.publishWatched headers token throws) := by
  have hcalls : (s.registryFor).2.calls = s.calls := by
    rw [State.registryFor]
    split <;> rfl
  intro i call hi
  refine ⟨call, ?_, .refl call⟩
  rw [State.publishWatched]
  dsimp only
  rw [hcalls]
  exact List.getElem?_append_of hi _

theorem keeps_onReturn (s : State τ) (message : Option (Headers τ)) :
    Keeps s (s.onReturn message) := by
  rw [State.onReturn]
  split
  · exact .refl s
  · intro j call hj
    refine ⟨_, List.getElem?_modify_of hj, ?_⟩
    split
    · exact ⟨rfl, fun _ => id, fun _ => id⟩
    · exact .refl call

theorem keeps_emitReturn (s : State τ) (message : Option (Headers τ)) :
    Keeps s (s.emitReturn message) := by
  rw [State.emitReturn]
  generalize s.listeners = n
  induction n with
  | zero => exact .refl s
  | succ n ih => exact ih.trans (keeps_onReturn _ message)

theorem Steps.keeps {s t : State τ} {event : Event τ} (hs : Steps s event t) : Keeps s t := by
  cases hs with
  | publishWatched => exact keeps_publishWatched s _ _ _
  | returns hi =>
    refine .trans (keeps_set hi ?_ rfl) (keeps_emitReturn _ _)
    exact ⟨rfl, fun _ => id, fun _ => id⟩
  | returnsOther => exact keeps_emitReturn s _
  | confirms hi hopen =>
    refine keeps_set hi ?_ rfl
    refine ⟨rfl, fun refused hrefused => ?_, fun _ => id⟩
    cases hopen.symm.trans hrefused
  | settles hi _ hopen =>
    refine keeps_set hi ?_ rfl
    refine ⟨rfl, fun _ => id, fun result hresult => ?_⟩
    cases hopen.symm.trans hresult

/-- A call is the last of its channel when it begins. -/
theorem calls_publishWatched (s : State τ) (headers : Headers τ) (token : τ) (throws : Bool) :
    ∃ call, (s.publishWatched headers token throws).calls[s.calls.length]? = some call ∧
      call.token = token ∧ call.headers = headers.guarded token ∧
      (throws = true → call.refused = some true) := by
  have hcalls : (s.registryFor).2.calls = s.calls := by
    rw [State.registryFor]
    split <;> rfl
  rw [State.publishWatched]
  dsimp only
  rw [hcalls, List.getElem?_concat_length]
  refine ⟨_, rfl, rfl, rfl, fun hthrows => ?_⟩
  rw [hthrows]
  rfl

/-! ## Correlation -/

variable {s t : State τ} {call call' : Call τ} {i : Nat} {registry : OrderedMap τ Nat}

/-- The registry holds the calls that have not settled, under their tokens. -/
def Registered (registry : OrderedMap τ Nat) (calls : List (Call τ)) : Prop :=
  ∀ token i, registry.get? token = some i ↔
    ∃ call, calls[i]? = some call ∧ call.token = token ∧ call.result = none

/-- What is known of a call. -/
structure Call.Sound (call : Call τ) : Prop where
  headers : call.headers.returnToken = some call.token
  returned : call.result = none → call.returned = call.handedBack
  settled : ∀ result, call.result = some result → ∃ refused, call.refused = some refused ∧
    result = if refused then none else some call.handedBack

structure Correlated (s : State τ) : Prop where
  listening : (s.registry = none ∧ s.listeners = 0 ∧ s.calls = []) ∨
    ∃ registry, s.registry = some registry ∧ s.listeners = 1 ∧ s.calls ≠ [] ∧
      Registered registry s.calls
  tokens : (s.calls.map (·.token)).Nodup
  sound : ∀ call ∈ s.calls, call.Sound

theorem correlated_start : Correlated (start : State τ) where
  listening := .inl ⟨rfl, rfl, rfl⟩
  tokens := List.nodup_nil
  sound := nofun

omit [DecidableEq τ] in
/-- The calls of one token are one. -/
theorem eq_of_token {calls : List (Call τ)} (h : (calls.map (·.token)).Nodup) {j : Nat}
    (hi : calls[i]? = some call) (hj : calls[j]? = some call') (heq : call.token = call'.token) :
    i = j := by
  have hi' : (calls.map (·.token))[i]? = some call.token := by rw [List.getElem?_map, hi]; rfl
  have hj' : (calls.map (·.token))[j]? = some call.token := by rw [List.getElem?_map, hj, heq]; rfl
  obtain ⟨hlt, hi'⟩ := List.getElem?_eq_some_iff.mp hi'
  obtain ⟨hlt', hj'⟩ := List.getElem?_eq_some_iff.mp hj'
  exact (List.Nodup.getElem_inj_iff h).mp (hi'.trans hj'.symm)

/-- A change that keeps the token and the result of a call. -/
theorem Registered.set {calls : List (Call τ)} (h : Registered registry calls)
    (hi : calls[i]? = some call) (htoken : call'.token = call.token)
    (hresult : call'.result = call.result) : Registered registry (calls.set i call') := by
  intro token j
  rw [h token j, List.getElem?_set]
  rcases eq_or_ne i j with rfl | hne
  · rw [if_pos rfl, if_pos (List.getElem?_eq_some_iff.mp hi).1]
    constructor
    · rintro ⟨c, hc, rfl, hopen⟩
      cases hi.symm.trans hc
      exact ⟨call', rfl, htoken, hresult.trans hopen⟩
    · rintro ⟨c, hc, rfl, hopen⟩
      cases hc
      exact ⟨call, hi, htoken.symm, hresult.symm.trans hopen⟩
  · rw [if_neg hne]

theorem Correlated.set (h : Correlated s) (hi : s.calls[i]? = some call)
    (htoken : call'.token = call.token) (hresult : call'.result = call.result)
    (hsound : call'.Sound) : Correlated { s with calls := s.calls.set i call' } where
  listening := by
    rcases h.listening with ⟨_, _, hnil⟩ | ⟨registry, hregistry, hlisteners, hne, hregistered⟩
    · rw [hnil] at hi
      cases hi
    · refine .inr ⟨registry, hregistry, hlisteners, ?_, hregistered.set hi htoken hresult⟩
      rw [Ne, List.set_eq_nil_iff]
      exact hne
  tokens := by
    rw [List.map_set_of_same hi htoken]
    exact h.tokens
  sound := by
    intro c hc
    rcases List.mem_or_eq_of_mem_set hc with hc | rfl
    · exact h.sound c hc
    · exact hsound

/-- However the registry was there, the channel is watched once. -/
theorem Correlated.registryFor (h : Correlated s) : ∃ registry,
    s.registryFor = (registry, ⟨some registry, 1, s.calls⟩) ∧ Registered registry s.calls := by
  rw [State.registryFor]
  rcases h.listening with ⟨hnone, hlisteners, hnil⟩ | ⟨registry, hregistry, hlisteners, -, hregistered⟩
  · refine ⟨.empty, ?_, fun token i => ?_⟩
    · rw [hnone, hlisteners]
    · rw [hnil]
      exact ⟨nofun, fun ⟨call, hi, _⟩ => by cases hi⟩
  · refine ⟨registry, ?_, hregistered⟩
    rw [hregistry]
    dsimp only
    rw [← hregistry, ← hlisteners]

/-- A new call is registered under its token. -/
theorem Registered.append {calls : List (Call τ)} (h : Registered registry calls)
    (hfresh : ∀ c ∈ calls, c.token ≠ call.token) (hopen : call.result = none) :
    Registered (registry.set call.token calls.length) (calls ++ [call]) := by
  intro token i
  rw [OrderedMap.get?_set]
  split
  · next htoken =>
    constructor
    · intro hi
      cases hi
      exact ⟨call, List.getElem?_concat_length, htoken.symm, hopen⟩
    · rintro ⟨c, hi, htoken', -⟩
      rcases List.getElem?_append_cases hi with hi | ⟨rfl, rfl⟩
      · exact absurd (htoken'.trans htoken) (hfresh c (List.mem_of_getElem? hi))
      · rfl
  · next htoken =>
    rw [h token i]
    constructor
    · rintro ⟨c, hi, hrest⟩
      exact ⟨c, List.getElem?_append_of hi _, hrest⟩
    · rintro ⟨c, hi, htoken', hresult⟩
      rcases List.getElem?_append_cases hi with hi | ⟨rfl, rfl⟩
      · exact ⟨c, hi, htoken', hresult⟩
      · exact absurd htoken'.symm htoken

theorem Correlated.publishWatched (h : Correlated s) {headers : Headers τ} {token : τ} {throws : Bool}
    (hfresh : ∀ call ∈ s.calls, call.token ≠ token) :
    Correlated (s.publishWatched headers token throws) := by
  obtain ⟨registry, heq, hregistered⟩ := h.registryFor
  rw [State.publishWatched, heq]
  refine ⟨.inr ⟨_, rfl, rfl, ?_, ?_⟩, ?_, fun call hcall => ?_⟩
  · simp
  · have happend : ∀ call : Call τ, call.token = token → call.result = none →
        Registered (registry.set call.token s.calls.length) (s.calls ++ [call]) :=
      fun call htoken hopen => hregistered.append (htoken ▸ hfresh) hopen
    exact happend ⟨token, headers.guarded token, false, false, _, none⟩ rfl rfl
  · rw [List.map_append, List.map_singleton]
    refine List.nodup_append.mpr ⟨h.tokens, List.nodup_singleton _, ?_⟩
    intro token' htoken' token'' htoken''
    obtain ⟨call, hcall, rfl⟩ := List.mem_map.mp htoken'
    rw [List.mem_singleton.mp htoken'']
    exact hfresh call hcall
  · rcases List.mem_append.mp hcall with hcall | hcall
    · exact h.sound call hcall
    · cases List.mem_singleton.mp hcall
      exact ⟨rfl, fun _ => rfl, nofun⟩

theorem emitReturn_eq (hlisteners : s.listeners = 1) (message : Option (Headers τ)) :
    s.emitReturn message = s.onReturn message := by
  rw [State.emitReturn, hlisteners]
  rfl

theorem emitReturn_unheard (hlisteners : s.listeners = 0) (message : Option (Headers τ)) :
    s.emitReturn message = s := by
  rw [State.emitReturn, hlisteners]
  rfl

/-- A return of a message that is no open call of the channel. -/
theorem Correlated.returnsOther (h : Correlated s) {message : Option (Headers τ)}
    (hother : ∀ call ∈ s.calls, call.result = none →
      message.bind (·.returnToken) ≠ some call.token) : s.emitReturn message = s := by
  rcases h.listening with ⟨_, hlisteners, -⟩ | ⟨registry, hregistry, hlisteners, -, hregistered⟩
  · exact emitReturn_unheard hlisteners message
  · have hunknown : ((message.bind (·.returnToken)).bind fun token =>
        s.registry.bind (·.get? token)) = none := by
      rw [hregistry, Option.bind_eq_none_iff]
      intro token htoken
      rw [Option.bind_some]
      cases hget : registry.get? token with
      | none => rfl
      | some i =>
        obtain ⟨call, hi, rfl, hopen⟩ := (hregistered token i).mp hget
        exact absurd htoken (hother call (List.mem_of_getElem? hi) hopen)
    rw [emitReturn_eq hlisteners]
    simp only [State.onReturn, hunknown]

/-- The return of an open call reaches its own entry. -/
theorem Correlated.returns (h : Correlated s) (hi : s.calls[i]? = some call)
    (hopen : call.refused = none) :
    Correlated (State.emitReturn { s with calls := s.calls.set i { call with handedBack := true } }
      (some call.headers)) := by
  have hsound := h.sound call (List.mem_of_getElem? hi)
  have hresult : call.result = none := by
    cases hresult : call.result with
    | none => rfl
    | some result =>
      obtain ⟨refused, hrefused, -⟩ := hsound.settled result hresult
      rw [hopen] at hrefused
      cases hrefused
  rcases h.listening with ⟨_, _, hnil⟩ | ⟨registry, hregistry, hlisteners, hne, hregistered⟩
  · rw [hnil] at hi
    cases hi
  · have hlt := (List.getElem?_eq_some_iff.mp hi).1
    have hget : registry.get? call.token = some i := (hregistered _ _).mpr ⟨call, hi, rfl, hresult⟩
    have heq : State.emitReturn
        { s with calls := s.calls.set i { call with handedBack := true } } (some call.headers) =
        { s with calls := s.calls.set i { call with handedBack := true, returned := true } } := by
      have hfound : (((some call.headers).bind (·.returnToken)).bind fun token =>
          s.registry.bind (·.get? token)) = some i := by
        rw [Option.bind_some, hsound.headers, Option.bind_some, hregistry, Option.bind_some, hget]
      have honce : State.listeners
          { s with calls := s.calls.set i { call with handedBack := true } } = 1 := hlisteners
      rw [emitReturn_eq honce]
      simp only [State.onReturn, hfound]
      congr 1
      apply List.ext_getElem?
      intro j
      rw [List.getElem?_modify]
      rcases eq_or_ne i j with rfl | hne
      · rw [List.getElem?_set_self hlt, List.getElem?_set_self hlt]
        simp
      · rw [List.getElem?_set_ne hne, List.getElem?_set_ne hne]
        simp [hne]
    rw [heq]
    exact h.set hi rfl rfl ⟨hsound.headers, fun _ => rfl, fun result hresult' => by
      rw [show call.result = some result from hresult'] at hresult
      cases hresult⟩

theorem Correlated.confirms (h : Correlated s) (hi : s.calls[i]? = some call)
    (hopen : call.refused = none) (refused : Bool) :
    Correlated { s with calls := s.calls.set i { call with refused := some refused } } := by
  have hsound := h.sound call (List.mem_of_getElem? hi)
  refine h.set hi rfl rfl ⟨hsound.headers, hsound.returned, fun result hresult => ?_⟩
  obtain ⟨refused', hrefused, -⟩ := hsound.settled result hresult
  rw [hopen] at hrefused
  cases hrefused

/-- A call settles, and leaves the registry. -/
theorem Correlated.settles (h : Correlated s) (hi : s.calls[i]? = some call) {refused : Bool}
    (hrefused : call.refused = some refused) (hopen : call.result = none) :
    Correlated (s.settle i call refused) := by
  have hsound := h.sound call (List.mem_of_getElem? hi)
  rcases h.listening with ⟨_, _, hnil⟩ | ⟨registry, hregistry, hlisteners, hne, hregistered⟩
  · rw [hnil] at hi
    cases hi
  refine ⟨.inr ⟨registry.erase call.token, ?_, hlisteners, ?_, ?_⟩, ?_, fun c hc => ?_⟩
  · rw [State.settle, hregistry, Option.map_some]
  · rw [State.settle, Ne, List.set_eq_nil_iff]
    exact hne
  · intro token j
    rw [OrderedMap.get?_erase, State.settle]
    split
    · next htoken =>
      refine ⟨by simp, ?_⟩
      rintro ⟨c, hj, htoken', hresult⟩
      rcases List.getElem?_set_cases hj with ⟨rfl, rfl⟩ | ⟨hij, hj⟩
      · cases hresult
      · exact absurd (eq_of_token h.tokens hi hj (htoken.symm.trans htoken'.symm)) hij
    · next htoken =>
      rw [hregistered token j]
      constructor
      · rintro ⟨c, hj, rfl, hresult⟩
        refine ⟨c, ?_, rfl, hresult⟩
        rw [List.getElem?_set, if_neg]
        · exact hj
        · rintro rfl
          cases hi.symm.trans hj
          exact htoken rfl
      · rintro ⟨c, hj, htoken', hresult⟩
        rcases List.getElem?_set_cases hj with ⟨rfl, rfl⟩ | ⟨hij, hj⟩
        · cases hresult
        · exact ⟨c, hj, htoken', hresult⟩
  · rw [State.settle, List.map_set_of_same hi]
    · exact h.tokens
    · rfl
  · rcases List.mem_or_eq_of_mem_set hc with hc | rfl
    · exact h.sound c hc
    · refine ⟨hsound.headers, by simp, fun result hresult => ⟨refused, hrefused, ?_⟩⟩
      rw [← Option.some_inj.mp hresult, hsound.returned hopen]

theorem Steps.correlated {event : Event τ} (H : Steps s event t) (hok : Distinct s event)
    (h : Correlated s) : Correlated t := by
  cases H with
  | publishWatched => exact h.publishWatched hok
  | returns hi hopen => exact h.returns hi hopen
  | returnsOther => exact (h.returnsOther hok).symm ▸ h
  | confirms hi hopen => exact h.confirms hi hopen _
  | settles hi hrefused hopen => exact h.settles hi hrefused hopen

theorem correlated (hr : Reach step Distinct start s) : Correlated s :=
  hr.invariant correlated_start fun h hok hs => (step_cases hs).correlated hok h

/-- A call is rejected when its message was refused, and otherwise reports whether it came back.
When all have settled the registry is empty, and the channel has one listener. -/
theorem return_correlated (hr : Reach step Distinct (start : State τ) s) :
    (∀ call ∈ s.calls, ∀ result, call.result = some result →
      (result = none ↔ call.refused = some true) ∧
      (∀ report, result = some report → (report = true ↔ call.handedBack = true))) ∧
    (s.calls ≠ [] → (∀ call ∈ s.calls, call.result ≠ none) →
      s.registry.map (·.keys) = some [] ∧ s.listeners = 1) := by
  have h := correlated hr
  constructor
  · intro call hcall result hresult
    obtain ⟨refused, hrefused, rfl⟩ := (h.sound call hcall).settled result hresult
    rw [hrefused]
    cases refused with
    | true => exact ⟨⟨fun _ => rfl, fun _ => rfl⟩, nofun⟩
    | false =>
      refine ⟨⟨nofun, nofun⟩, fun report hreport => ?_⟩
      cases hreport
      exact Iff.rfl
  · intro hne hall
    rcases h.listening with ⟨_, _, hnil⟩ | ⟨registry, hregistry, hlisteners, -, hregistered⟩
    · exact absurd hnil hne
    · refine ⟨?_, hlisteners⟩
      rw [hregistry, Option.map_some, Option.some_inj]
      refine List.eq_nil_iff_forall_not_mem.mpr fun token htoken => ?_
      obtain ⟨i, hget⟩ := OrderedMap.mem_iff.mp htoken
      obtain ⟨call, hi, -, hopen⟩ := (hregistered token i).mp hget
      exact hall call (List.mem_of_getElem? hi) hopen

/-- Two calls, the first with a token in its headers from before: its message is returned, the other
one delivered, and a foreign return and a malformed one come in between. -/
theorem return_correlated_run : ∃ s : State Nat, s.calls.map (·.result) =
    [some (some true), some (some false)] ∧
    (∀ call ∈ s.calls, ∀ result, call.result = some result →
      (result = none ↔ call.refused = some true) ∧
      (∀ report, result = some report → (report = true ↔ call.handedBack = true))) ∧
    (s.calls ≠ [] → (∀ call ∈ s.calls, call.result ≠ none) →
      s.registry.map (·.keys) = some [] ∧ s.listeners = 1) := by
  have hrun : (run step Distinct (start : State Nat) [.publishWatched ⟨some 9⟩ 1 false,
      .publishWatched ⟨none⟩ 2 false, .returnsOther (some ⟨some 9⟩), .returns 0, .returnsOther none,
      .confirms 1 false, .confirms 0 false, .settles 0, .settles 1]).any fun s =>
        decide (s.calls.map (·.result) = [some (some true), some (some false)]) := by
    decide +kernel
  obtain ⟨s, hs, h⟩ := (Option.any_eq_true _ _).mp hrun
  exact ⟨s, of_decide_eq_true h, return_correlated (reach_of_run hs)⟩

end RoutablePublish
end RabbitMQ
