import RabbitMQ.Lib.OrderedMap
import RabbitMQ.Lib.Transition

/-! `publishWithCache`: the calls of a manager and the cache they share, with whatever else writes to
it. Nothing reserves a key between the lookup of a call and its write. -/

namespace RabbitMQ
namespace PublishWithCache

open Transition

universe u

variable {α : Type u}

structure Config where
  useCache : Bool
  /-- The name of the exchange, in runs without `setExchange`. -/
  exchange : String
  /-- `validateRoutingKey` does not throw. -/
  validRoutingKey : String → Bool

/-- `#cacheKey` -/
def Config.cacheKey (c : Config) (routingKey : String) : String := c.exchange ++ ":" ++ routingKey

inductive Stage (α : Type u) where
  /-- `await messageGenerator()` -/
  | generating
  /-- `await this.publish(routingKey, message, …)`, where a message may be undefined -/
  | publishing (message : Option α)
  /-- the message was published, and the call is about to resume -/
  | storing (message : α)
  | returned (message : α)
  | rejected
  deriving DecidableEq

/-- The call has missed, and has neither written to the cache nor failed. -/
def Stage.pending : Stage α → Bool
  | .generating | .publishing _ | .storing _ => true
  | .returned _ | .rejected => false

structure Call (α : Type u) where
  routingKey : String
  stage : Stage α

structure State (α : Type u) where
  cache : OrderedMap String α
  calls : List (Call α)

def start : State α := ⟨.empty, []⟩

inductive Output (α : Type u) where
  | published (routingKey : String) (message : α)
  | returned (routingKey : String) (message : α)
  deriving DecidableEq

inductive Event (α : Type u) where
  /-- a call, with its message unless that is a function -/
  | call (routingKey : String) (message : Option (Option α))
  | generates (i : Nat) (message : Option α)
  | generatorFails (i : Nat)
  | confirmed (i : Nat)
  | publishFails (i : Nat)
  /-- the continuation of `await this.publish(…)` -/
  | resumes (i : Nat)
  /-- `invalidateCache` -/
  | invalidates (routingKey : String)
  /-- `clearCache` -/
  | clears
  /-- the time to live of an entry is over -/
  | expires (cacheKey : String)

def State.join (s : State α) (routingKey : String) (stage : Stage α) : State α :=
  { s with calls := s.calls ++ [⟨routingKey, stage⟩] }

def State.move (s : State α) (i : Nat) (routingKey : String) (stage : Stage α) : State α :=
  { s with calls := s.calls.set i ⟨routingKey, stage⟩ }

/-- What the lookup of a call finds. -/
def State.lookup (c : Config) (s : State α) (routingKey : String) : Option α :=
  if c.useCache then s.cache.get? (c.cacheKey routingKey) else none

def step (c : Config) (s : State α) : Event α → Option (State α × List (Output α))
  | .call routingKey message =>
    if c.validRoutingKey routingKey then
      match s.lookup c routingKey with
      | some cached => some (s.join routingKey (.returned cached), [.returned routingKey cached])
      | none =>
        match message with
        | none => some (s.join routingKey .generating, [])
        | some message => some (s.join routingKey (.publishing message), [])
    else some (s.join routingKey .rejected, [])
  | .generates i message =>
    match s.calls[i]? with
    | some ⟨routingKey, .generating⟩ => some (s.move i routingKey (.publishing message), [])
    | _ => none
  | .generatorFails i =>
    match s.calls[i]? with
    | some ⟨routingKey, .generating⟩ => some (s.move i routingKey .rejected, [])
    | _ => none
  | .confirmed i =>
    match s.calls[i]? with
    | some ⟨routingKey, .publishing (some message)⟩ =>
      some (s.move i routingKey (.storing message), [.published routingKey message])
    | _ => none
  | .publishFails i =>
    match s.calls[i]? with
    | some ⟨routingKey, .publishing _⟩ => some (s.move i routingKey .rejected, [])
    | _ => none
  | .resumes i =>
    match s.calls[i]? with
    | some ⟨routingKey, .storing message⟩ =>
      some ({ s.move i routingKey (.returned message) with
        cache := if c.useCache then s.cache.set (c.cacheKey routingKey) message else s.cache },
        [.returned routingKey message])
    | _ => none
  | .invalidates routingKey => some ({ s with cache := s.cache.erase (c.cacheKey routingKey) }, [])
  | .clears => some ({ s with cache := .empty }, [])
  | .expires cacheKey => some ({ s with cache := s.cache.erase cacheKey }, [])

/-- What a step can be. -/
inductive Steps (c : Config) (s : State α) : Event α → State α → List (Output α) → Prop
  | refused {routingKey message} : Steps c s (.call routingKey message) (s.join routingKey .rejected) []
  | hit {routingKey message cached} (hlookup : s.lookup c routingKey = some cached) :
      Steps c s (.call routingKey message) (s.join routingKey (.returned cached))
        [.returned routingKey cached]
  | miss {routingKey message stage} (hlookup : s.lookup c routingKey = none)
      (hstage : stage = .generating ∨ ∃ m, stage = .publishing m) :
      Steps c s (.call routingKey message) (s.join routingKey stage) []
  | generated {i routingKey message} (hcall : s.calls[i]? = some ⟨routingKey, .generating⟩) :
      Steps c s (.generates i message) (s.move i routingKey (.publishing message)) []
  | generatorFailed {i routingKey} (hcall : s.calls[i]? = some ⟨routingKey, .generating⟩) :
      Steps c s (.generatorFails i) (s.move i routingKey .rejected) []
  | confirmed {i routingKey message}
      (hcall : s.calls[i]? = some ⟨routingKey, .publishing (some message)⟩) :
      Steps c s (.confirmed i) (s.move i routingKey (.storing message))
        [.published routingKey message]
  | publishFailed {i routingKey message}
      (hcall : s.calls[i]? = some ⟨routingKey, .publishing message⟩) :
      Steps c s (.publishFails i) (s.move i routingKey .rejected) []
  | stored {i routingKey message} (hcall : s.calls[i]? = some ⟨routingKey, .storing message⟩) :
      Steps c s (.resumes i) { s.move i routingKey (.returned message) with
        cache := if c.useCache then s.cache.set (c.cacheKey routingKey) message else s.cache }
        [.returned routingKey message]
  | invalidated {routingKey} : Steps c s (.invalidates routingKey)
      { s with cache := s.cache.erase (c.cacheKey routingKey) } []
  | cleared : Steps c s .clears { s with cache := .empty } []
  | expired {cacheKey} : Steps c s (.expires cacheKey) { s with cache := s.cache.erase cacheKey } []

variable {c : Config} {s t : State α} {event : Event α} {out : List (Output α)} {key : String}

theorem step_cases (hs : step c s event = some (t, out)) : Steps c s event t out := by
  cases event with
  | call routingKey message =>
    simp only [step] at hs
    split at hs
    · split at hs
      · next cached hlookup =>
        cases hs
        exact .hit hlookup
      · next hlookup =>
        cases message with
        | none =>
          cases hs
          exact .miss hlookup (.inl rfl)
        | some message =>
          cases hs
          exact .miss hlookup (.inr ⟨message, rfl⟩)
    · cases hs
      exact .refused
  | generates i message | generatorFails i | confirmed i | publishFails i | resumes i =>
    simp only [step] at hs
    split at hs
    · next hcall =>
      cases hs
      constructor
      exact hcall
    · cases hs
  | invalidates | clears | expires =>
    cases hs
    constructor

/-! ## What is pending for a key -/

/-- The stage of a call of the key that is pending. -/
def Call.awaited (key : String) (call : Call α) : Option (Stage α) :=
  if call.routingKey = key ∧ call.stage.pending then some call.stage else none

/-- The stages of the calls of a key that are between their miss and their write. -/
def State.pending (s : State α) (key : String) : List (Stage α) := s.calls.filterMap (·.awaited key)

theorem pending_join (s : State α) (routingKey : String) (stage : Stage α) (key : String) :
    (s.join routingKey stage).pending key =
      s.pending key ++ if routingKey = key ∧ stage.pending then [stage] else [] := by
  rw [State.pending, State.join, List.filterMap_append, State.pending]
  congr 1
  rw [List.filterMap_cons, List.filterMap_nil, Call.awaited]
  dsimp only
  by_cases h : routingKey = key ∧ stage.pending
  · rw [if_pos h, if_pos h]
  · rw [if_neg h, if_neg h]

/-- A pending call moves on. -/
theorem pending_move {i : Nat} {routingKey : String} {stage : Stage α}
    (hcall : s.calls[i]? = some ⟨routingKey, stage⟩) (hpending : stage.pending) (stage' : Stage α) :
    (routingKey ≠ key ∧ (s.move i routingKey stage').pending key = s.pending key) ∨
    (routingKey = key ∧ ∃ before after, s.pending key = before ++ stage :: after ∧
      (s.move i routingKey stage').pending key =
        before ++ (if stage'.pending then [stage'] else []) ++ after) := by
  obtain ⟨hi, hget⟩ := List.getElem?_eq_some_iff.mp hcall
  obtain ⟨pre, post, hcalls, -, hset⟩ :=
    List.exists_of_set hi
  rw [hget] at hcalls
  rw [State.pending, State.pending, State.move, hset, hcalls, List.filterMap_append,
    List.filterMap_append, List.filterMap_cons, List.filterMap_cons, Call.awaited, Call.awaited]
  dsimp only
  by_cases hkey : routingKey = key
  · refine .inr ⟨hkey, pre.filterMap (·.awaited key), post.filterMap (·.awaited key), ?_, ?_⟩
    · rw [if_pos ⟨hkey, hpending⟩]
    · cases hstage : stage'.pending with
      | true => rw [if_pos ⟨hkey, rfl⟩, if_pos rfl, List.append_assoc]; rfl
      | false => rw [if_neg (by simp), if_neg (by simp), List.append_nil]
  · rw [if_neg (fun h => hkey h.1), if_neg (fun h => hkey h.1)]
    exact .inl ⟨hkey, rfl⟩

theorem cacheKey_inj {routingKey : String} (h : c.cacheKey routingKey = c.cacheKey key) :
    routingKey = key := (String.append_right_inj _).mp h

/-! ## One publication -/

def Output.routingKey : Output α → String
  | .published routingKey _ | .returned routingKey _ => routingKey

def Output.message : Output α → α
  | .published _ message | .returned _ message => message

/-- A publication with the key. -/
def Output.publishes (key : String) : Output α → Bool
  | .published routingKey _ => routingKey = key
  | .returned _ _ => false

/-- What is said about the key. -/
def about (key : String) (log : List (Output α)) : List (Output α) :=
  log.filter (·.routingKey = key)

/-- At most one message is published with the key, none when one is cached, and every call that
returned has returned that message. -/
structure PublishedOnce (cached : Option α) (key : String) (log : List (Output α)) : Prop where
  once : log.countP (·.publishes key) ≤ if cached.isSome then 0 else 1
  returned : ∀ message, .returned key message ∈ log →
    cached = some message ∨ .published key message ∈ log
  same : ∀ output ∈ about key log, ∀ output' ∈ about key log, output.message = output'.message

/-- No entry of the key is dropped, and no publish with it fails. -/
def Undisturbed (c : Config) (key : String) (s : State α) : Event α → Prop
  | .publishFails i => ∀ call ∈ s.calls[i]?, call.routingKey ≠ key
  | .invalidates routingKey => routingKey ≠ key
  | .clears => False
  | .expires cacheKey => cacheKey ≠ c.cacheKey key
  | _ => True

instance (c : Config) (key : String) (s : State α) (event : Event α) :
    Decidable (Undisturbed c key s event) := by
  unfold Undisturbed
  split <;> infer_instance

/-- A call with the key starts when no other is between its miss and its write. -/
def Apart (key : String) (s : State α) : Event α → Prop
  | .call routingKey _ => routingKey = key → s.pending key = []
  | _ => True

instance [DecidableEq α] (key : String) (s : State α) (event : Event α) :
    Decidable (Apart key s event) := by
  unfold Apart
  split <;> infer_instance

/-- What a pending call has said. -/
def announced (key : String) : Stage α → List (Output α)
  | .storing message => [.published key message]
  | _ => []

/-- Where a key is, with what was said about it. -/
inductive Phase (c : Config) (cached : Option α) (key : String) (s : State α)
    (log : List (Output α)) : Prop
  | missing (hcached : cached = none) (hcache : s.cache.get? (c.cacheKey key) = none)
      (hpending : s.pending key = []) (hlog : about key log = [])
  | pending {stage : Stage α} (hcached : cached = none)
      (hcache : s.cache.get? (c.cacheKey key) = none) (hpending : s.pending key = [stage])
      (hlog : about key log = announced key stage)
  | stored {message : α} {first : List (Output α)} (hcache : s.cache.get? (c.cacheKey key) = some message)
      (hpending : s.pending key = [])
      (hfirst : (first = [] ∧ cached = some message) ∨
        (first = [.published key message] ∧ cached = none))
      (hlog : ∃ hits, about key log = first ++ hits ∧ ∀ output ∈ hits, output = .returned key message)

variable {cached : Option α} {log : List (Output α)}

theorem about_append (log log' : List (Output α)) :
    about key (log ++ log') = about key log ++ about key log' := List.filter_append ..

theorem about_returned (key : String) (message : α) :
    about key [.returned key message] = [.returned key message] :=
  List.filter_cons_of_pos (decide_eq_true rfl)

theorem about_returned_of_ne {routingKey : String} (h : routingKey ≠ key) (message : α) :
    about key [.returned routingKey message] = [] :=
  List.filter_cons_of_neg fun hkey => h (of_decide_eq_true hkey)

theorem countP_publishes (key : String) (log : List (Output α)) :
    log.countP (·.publishes key) = (about key log).countP (·.publishes key) := by
  rw [about, List.countP_filter]
  refine List.countP_congr fun output _ => ?_
  cases output with
  | published routingKey message =>
    exact ⟨fun h => (Bool.and_self _).trans h, fun h => (Bool.and_self _).symm.trans h⟩
  | returned routingKey message => simp [Output.publishes]

theorem Phase.publishedOnce (h : Phase c cached key s log) : PublishedOnce cached key log := by
  have hmem : ∀ {output : Output α}, output.routingKey = key → output ∈ log →
      output ∈ about key log := fun hkey hout => List.mem_filter.mpr ⟨hout, by simpa using hkey⟩
  cases h with
  | missing hcached hcache hpending hlog =>
    refine ⟨?_, fun message hout => ?_, ?_⟩
    · rw [countP_publishes, hlog]
      exact Nat.zero_le _
    · have hout := hmem rfl hout
      rw [hlog] at hout
      cases hout
    · rw [hlog]
      exact nofun
  | @pending stage hcached hcache hpending hlog =>
    rw [hcached]
    cases stage with
    | storing message =>
      refine ⟨?_, fun message hout => ?_, ?_⟩
      · rw [countP_publishes, hlog]
        exact List.countP_le_length
      · have hout := hmem rfl hout
        rw [hlog] at hout
        cases List.mem_singleton.mp hout
      · rw [hlog]
        intro output hout output' hout'
        rw [List.mem_singleton.mp hout, List.mem_singleton.mp hout']
    | generating | publishing | returned | rejected =>
      refine ⟨?_, fun message hout => ?_, ?_⟩
      · rw [countP_publishes, hlog]
        exact Nat.zero_le _
      · have hout := hmem rfl hout
        rw [hlog] at hout
        cases hout
      · rw [hlog]
        exact nofun
  | @stored message first hcache hpending hfirst hlog =>
    obtain ⟨hits, habout, hhits⟩ := hlog
    have hnone : hits.countP (·.publishes key) = 0 :=
      List.countP_eq_zero.mpr fun output hout => by rw [hhits output hout]; exact Bool.false_ne_true
    have hall : ∀ output ∈ about key log, output.message = message := by
      intro output hout
      rw [habout] at hout
      rcases List.mem_append.mp hout with hout | hout
      · rcases hfirst with ⟨rfl, -⟩ | ⟨rfl, -⟩
        · cases hout
        · rw [List.mem_singleton.mp hout]
          rfl
      · rw [hhits output hout]
        rfl
    refine ⟨?_, fun message' hout => ?_, fun output hout output' hout' => ?_⟩
    · rw [countP_publishes, habout, List.countP_append, hnone]
      rcases hfirst with ⟨rfl, rfl⟩ | ⟨rfl, rfl⟩
      · exact Nat.le_refl _
      · exact List.countP_le_length
    · cases hall _ (hmem rfl hout)
      rcases hfirst with ⟨-, hcached⟩ | ⟨rfl, -⟩
      · exact .inl hcached
      · have hfirst : Output.published key message' ∈ about key log := by
          rw [habout]
          exact List.mem_cons_self
        exact .inr (List.mem_filter.mp hfirst).1
    · rw [hall output hout, hall output' hout']

/-- A phase is a matter of the entry, the pending calls and what was said. -/
theorem Phase.congr (h : Phase c cached key s log) (hpending : t.pending key = s.pending key)
    (hcache : t.cache.get? (c.cacheKey key) = s.cache.get? (c.cacheKey key)) {out : List (Output α)} (hout : about key out = []) :
    Phase c cached key t (log ++ out) := by
  have hlog : about key (log ++ out) = about key log := by
    rw [about_append, hout, List.append_nil]
  cases h with
  | missing h₁ h₂ h₃ h₄ =>
    exact .missing h₁ (hcache.trans h₂) (hpending.trans h₃) (hlog.trans h₄)
  | pending h₁ h₂ h₃ h₄ =>
    exact .pending h₁ (hcache.trans h₂) (hpending.trans h₃) (hlog.trans h₄)
  | stored h₁ h₂ h₃ h₄ => exact .stored (hcache.trans h₁) (hpending.trans h₂) h₃ (hlog.symm ▸ h₄)

/-- A pending call of the key is the only one, and the key is not cached. -/
theorem Phase.waiting (h : Phase c cached key s log) {before after : List (Stage α)} {stage : Stage α}
    (hpending : s.pending key = before ++ stage :: after) : before = [] ∧ after = [] ∧ cached = none ∧
      s.cache.get? (c.cacheKey key) = none ∧ about key log = announced key stage := by
  cases h with
  | pending hcached hcache hone hlog =>
    rw [hone] at hpending
    cases before with
    | nil =>
      cases hpending
      exact ⟨rfl, rfl, hcached, hcache, hlog⟩
    | cons stage' before =>
      have hlength := congrArg List.length hpending
      simp at hlength
  | missing _ _ hnone _ | stored _ hnone _ _ =>
    rw [hnone] at hpending
    cases before <;> cases hpending

/-- A call that moves on without saying anything, or fails before it has. -/
theorem Phase.move (h : Phase c cached key s log) {i : Nat} {routingKey : String}
    {stage stage' : Stage α} (hcall : s.calls[i]? = some ⟨routingKey, stage⟩)
    (hpending : stage.pending) {out : List (Output α)} (hkeys : ∀ output ∈ out, output.routingKey = routingKey)
    (hout : routingKey = key → announced key stage ++ out = announced key stage' ∧
      (stage'.pending ∨ announced key stage' = [])) :
    Phase c cached key (s.move i routingKey stage') (log ++ out) := by
  rcases pending_move hcall hpending stage' with ⟨hne, hsame⟩ | ⟨hkey, before, after, hs, ht⟩
  · refine h.congr hsame rfl (List.filter_eq_nil_iff.mpr fun output ho => ?_)
    simpa [hkeys output ho] using hne
  · obtain ⟨rfl, rfl, hcached, hcache, hlog⟩ := h.waiting hs
    obtain ⟨hannounced, hnext⟩ := hout hkey
    have hall : about key out = out := List.filter_eq_self.mpr fun output ho => by
      simpa [hkeys output ho] using hkey
    have hlog' : about key (log ++ out) = announced key stage' := by
      rw [about_append, hlog, hall, hannounced]
    cases hpending' : stage'.pending with
    | true =>
      rw [hpending', if_pos rfl] at ht
      exact .pending hcached hcache ht hlog'
    | false =>
      rw [hpending', if_neg Bool.false_ne_true] at ht
      have hnothing := hnext.resolve_left (by rw [hpending']; exact Bool.false_ne_true)
      exact .missing hcached hcache ht (hlog'.trans hnothing)

theorem Phase.step (hcache : c.useCache) (h : Phase c cached key s log)
    (hundisturbed : Undisturbed c key s event) (hapart : Apart key s event)
    (H : Steps c s event t out) : Phase c cached key t (log ++ out) := by
  have hidle : ∀ {routingKey stage}, (routingKey ≠ key ∨ Stage.pending (α := α) stage = false) →
      (s.join routingKey stage).pending key = s.pending key := by
    intro routingKey stage hor
    have hnot : ¬ (routingKey = key ∧ stage.pending) := by
      rintro ⟨hkey, hpending⟩
      rcases hor with hne | hfalse
      · exact hne hkey
      · cases hpending.symm.trans hfalse
    rw [pending_join, if_neg hnot, List.append_nil]
  cases H with
  | refused => exact h.congr (hidle (.inr rfl)) rfl rfl
  | @hit routingKey message found hlookup =>
    by_cases hkey : routingKey = key
    · subst hkey
      rw [State.lookup, if_pos hcache] at hlookup
      cases h with
      | missing _ hnone _ _ | pending _ hnone _ _ => cases hnone.symm.trans hlookup
      | @stored message' first hget hpending hfirst hlog =>
        cases hget.symm.trans hlookup
        obtain ⟨hits, habout, hhits⟩ := hlog
        refine .stored hget ((hidle (.inr rfl)).trans hpending) hfirst
          ⟨hits ++ [.returned routingKey found], ?_, fun output hout => ?_⟩
        · rw [about_append, habout, about_returned, List.append_assoc]
        · rcases List.mem_append.mp hout with hout | hout
          · exact hhits output hout
          · exact List.mem_singleton.mp hout
    · exact h.congr (hidle (.inl hkey)) rfl (about_returned_of_ne hkey _)
  | @miss routingKey message stage hlookup hstage =>
    by_cases hkey : routingKey = key
    · subst hkey
      have hnone := hapart rfl
      rw [State.lookup, if_pos hcache] at hlookup
      have hpending : stage.pending ∧ announced routingKey stage = [] := by
        rcases hstage with rfl | ⟨m, rfl⟩
        · exact ⟨rfl, rfl⟩
        · exact ⟨rfl, rfl⟩
      rw [List.append_nil]
      cases h with
      | missing hcached hget _ hlog =>
        refine .pending hcached hget ?_ (hlog.trans hpending.2.symm)
        rw [pending_join, hnone, if_pos ⟨rfl, hpending.1⟩]
        rfl
      | pending _ _ hone _ => cases hnone.symm.trans hone
      | stored hget _ _ _ => cases hget.symm.trans hlookup
    · exact h.congr (hidle (.inl hkey)) rfl rfl
  | generated hcall => exact h.move hcall rfl nofun fun _ => ⟨rfl, .inl rfl⟩
  | generatorFailed hcall => exact h.move hcall rfl nofun fun _ => ⟨rfl, .inr rfl⟩
  | confirmed hcall =>
    refine h.move hcall rfl (fun output hout => ?_) fun hkey => ⟨?_, .inl rfl⟩
    · rw [List.mem_singleton.mp hout]
      rfl
    · rw [hkey]
      rfl
  | publishFailed hcall => exact h.move hcall rfl nofun fun _ => ⟨rfl, .inr rfl⟩
  | @stored i routingKey message hcall =>
    rw [if_pos hcache]
    rcases pending_move hcall rfl (.returned message) with
      ⟨hne, hsame⟩ | ⟨hkey, before, after, hs, ht⟩
    · have hothers : about key [.returned routingKey message] = [] := about_returned_of_ne hne message
      refine h.congr (t := ⟨s.cache.set (c.cacheKey routingKey) message, _⟩) hsame ?_ hothers
      exact OrderedMap.get?_set .. |>.trans (if_neg fun heq => hne (cacheKey_inj heq.symm))
    · obtain ⟨rfl, rfl, hcached, -, hlog⟩ := h.waiting hs
      subst hkey
      refine .stored (OrderedMap.get?_set_self ..) ht (.inr ⟨rfl, hcached⟩)
        ⟨[.returned routingKey message], ?_, fun output hout => List.mem_singleton.mp hout⟩
      rw [about_append, hlog, about_returned]
      rfl
  | @invalidated routingKey =>
    refine h.congr (t := ⟨s.cache.erase (c.cacheKey routingKey), s.calls⟩) rfl ?_ List.filter_nil
    exact OrderedMap.get?_erase .. |>.trans (if_neg fun heq => hundisturbed (cacheKey_inj heq.symm))
  | cleared => cases hundisturbed
  | @expired cacheKey =>
    refine h.congr (t := ⟨s.cache.erase cacheKey, s.calls⟩) rfl ?_ List.filter_nil
    exact OrderedMap.get?_erase .. |>.trans (if_neg fun heq => hundisturbed heq.symm)

/-- With the cache on, no matter what was called before: as long as no call with the key starts while
another is between its miss and its write, one message is published with it at most, and it is the one
that every call returns. -/
theorem publishes_once (hcache : c.useCache) (key : String) {s₀ : State α}
    (hquiet : s₀.pending key = []) {w : State α × List (Output α)}
    (hr : Reach (logged (step c)) (fun w event => Undisturbed c key w.1 event ∧ Apart key w.1 event)
      (s₀, []) w) :
    PublishedOnce (s₀.cache.get? (c.cacheKey key)) key w.2 := by
  have h₀ : Phase c (s₀.cache.get? (c.cacheKey key)) key s₀ [] := by
    cases hget : s₀.cache.get? (c.cacheKey key) with
    | none => exact .missing rfl hget hquiet rfl
    | some message => exact .stored hget hquiet (.inl ⟨rfl, rfl⟩) ⟨[], rfl, nofun⟩
  have h : Phase c (s₀.cache.get? (c.cacheKey key)) key w.1 w.2 := by
    refine hr.invariant (I := fun w => Phase c _ key w.1 w.2) h₀ fun {w w' event} h hok hs => ?_
    obtain ⟨t, out, hstep, rfl⟩ := logged_eq_some hs
    exact h.step hcache hok.1 hok.2 (step_cases hstep)
  exact h.publishedOnce

def cachedConfig : Config := ⟨true, "events", fun _ => true⟩

/-- A second call returns what the first one has published. -/
theorem second_call_hits : ∃ w : State String × List (Output String),
    w.2 = [.published "orders" "first", .returned "orders" "first", .returned "orders" "first"] ∧
      PublishedOnce none "orders" w.2 := by
  have hrun : (run (logged (step cachedConfig)) (fun w event =>
      Undisturbed cachedConfig "orders" w.1 event ∧ Apart "orders" w.1 event) (start, [])
      [.call "orders" none, .generates 0 (some "first"), .confirmed 0, .resumes 0,
        .call "orders" none]).any (fun w => decide (w.2 = [.published "orders" "first",
          .returned "orders" "first", .returned "orders" "first"])) := by decide +kernel
  obtain ⟨w, hw, h⟩ := (Option.any_eq_true _ _).mp hrun
  have hquiet : (start : State String).pending "orders" = [] := rfl
  exact ⟨w, of_decide_eq_true h, publishes_once rfl "orders" hquiet (reach_of_run hw)⟩

/-- Two calls that start before either has published: both of them miss, and both publish. -/
theorem concurrent_calls_publish : ∃ w : State String × List (Output String),
    Reach (logged (step cachedConfig)) (fun w event => Undisturbed cachedConfig "orders" w.1 event)
      (start, []) w ∧
    w.2 = [.published "orders" "first", .returned "orders" "first", .published "orders" "second",
      .returned "orders" "second"] ∧ ¬ PublishedOnce none "orders" w.2 := by
  have hrun : (run (logged (step cachedConfig)) (fun w event =>
      Undisturbed cachedConfig "orders" w.1 event) (start, [])
      [.call "orders" none, .call "orders" none, .generates 0 (some "first"), .confirmed 0,
        .resumes 0, .generates 1 (some "second"), .confirmed 1, .resumes 1]).any (fun w =>
          decide (w.2 = [.published "orders" "first", .returned "orders" "first",
            .published "orders" "second", .returned "orders" "second"])) := by decide +kernel
  obtain ⟨w, hw, h⟩ := (Option.any_eq_true _ _).mp hrun
  have hlog := of_decide_eq_true h
  refine ⟨w, reach_of_run hw, hlog, fun honce => ?_⟩
  have hcount := honce.once
  rw [hlog] at hcount
  revert hcount
  decide +kernel

end PublishWithCache
end RabbitMQ
