import RabbitMQ.Client.PublishWithCache

/-! What `publishWithCache` returns was published, and since the entry of its key was last dropped,
but for what a call that was under way then still brings in. -/

namespace RabbitMQ
namespace PublishWithCache

open Transition

universe u

variable {α : Type u} {c : Config} {s s₀ t : State α} {event : Event α} {out log : List (Output α)}
  {key : String} {message : α}

/-- A call has published the message with the key, and has not written it to the cache yet. -/
def State.Storing (s : State α) (key : String) (message : α) : Prop :=
  ⟨key, .storing message⟩ ∈ s.calls

/-- A message that calls with the key may come to return without publishing it: it is cached, or
about to be. -/
def State.Held (c : Config) (s : State α) (key : String) (message : α) : Prop :=
  (c.useCache ∧ s.cache.get? (c.cacheKey key) = some message) ∨ s.Storing key message

/-- What is held, and what was returned at any moment, was held at the start or published before. -/
structure Fresh (c : Config) (s₀ s : State α) (log : List (Output α)) : Prop where
  held : ∀ key message, s.Held c key message →
    s₀.Held c key message ∨ .published key message ∈ log
  returned : ∀ key message before after, log = before ++ .returned key message :: after →
    s₀.Held c key message ∨ .published key message ∈ before

/-- The events that drop the entry of a key. -/
inductive Drops (c : Config) (key : String) : Event α → Prop
  | invalidates : Drops c key (.invalidates key)
  | clears : Drops c key .clears
  | expires : Drops c key (.expires (c.cacheKey key))

/-- Nothing is held under a key whose entry is gone and that no call is under way with. -/
theorem not_held (hcache : s.cache.get? (c.cacheKey key) = none) (hpending : s.pending key = []) :
    ¬ s.Held c key message := by
  rintro (⟨-, hget⟩ | hstoring)
  · cases hcache.symm.trans hget
  · have hmem : Stage.storing message ∈ s.pending key :=
      List.mem_filterMap.mpr ⟨_, hstoring, if_pos ⟨rfl, rfl⟩⟩
    rw [hpending] at hmem
    cases hmem

/-- What is held after a step was held before it, or the step says that it was published. -/
theorem Steps.held (H : Steps c s event t out) (h : t.Held c key message) :
    s.Held c key message ∨ .published key message ∈ out := by
  have hcall : ∀ {i routingKey stage}, (∀ m, stage ≠ .storing m) →
      (s.move i routingKey stage).Storing key message → s.Storing key message := by
    intro i routingKey stage hstage hmem
    rcases List.mem_or_eq_of_mem_set hmem with hmem | heq
    · exact hmem
    · cases heq
      exact absurd rfl (hstage message)
  have hjoin : ∀ {routingKey stage}, (∀ m, stage ≠ .storing m) →
      (s.join routingKey stage).Storing key message → s.Storing key message := by
    intro routingKey stage hstage hmem
    rcases List.mem_append.mp hmem with hmem | hmem
    · exact hmem
    · cases List.mem_singleton.mp hmem
      exact absurd rfl (hstage message)
  cases H with
  | refused => exact .inl (h.imp id (hjoin fun _ h => by cases h))
  | hit => exact .inl (h.imp id (hjoin fun _ h => by cases h))
  | miss hlookup hstage =>
    refine .inl (h.imp id (hjoin ?_))
    rcases hstage with rfl | ⟨m, rfl⟩
    · exact fun _ h => by cases h
    · exact fun _ h => by cases h
  | generated => exact .inl (h.imp id (hcall fun _ h => by cases h))
  | generatorFailed => exact .inl (h.imp id (hcall fun _ h => by cases h))
  | publishFailed => exact .inl (h.imp id (hcall fun _ h => by cases h))
  | @confirmed i routingKey published hcalls =>
    rcases h with hcached | hstoring
    · exact .inl (.inl hcached)
    · rcases List.mem_or_eq_of_mem_set hstoring with hmem | heq
      · exact .inl (.inr hmem)
      · cases heq
        exact .inr List.mem_cons_self
  | @stored i routingKey stored hcalls =>
    rcases h with ⟨hcache, hget⟩ | hstoring
    · dsimp only at hget
      rw [if_pos hcache, OrderedMap.get?_set] at hget
      split at hget
      · next heq =>
        cases hget
        cases cacheKey_inj heq
        exact .inl (.inr (List.mem_of_getElem? hcalls))
      · exact .inl (.inl ⟨hcache, hget⟩)
    · exact .inl (.inr (hcall (fun _ h => by cases h) hstoring))
  | invalidated | expired =>
    refine .inl (h.imp (fun hcached => ?_) id)
    obtain ⟨hcache, hget⟩ := hcached
    rw [OrderedMap.get?_erase] at hget
    exact ⟨hcache, (Option.ite_none_left_eq_some.mp hget).2⟩
  | cleared =>
    rcases h with ⟨-, hget⟩ | hstoring
    · cases hget
    · exact .inl (.inr hstoring)

/-- What a step returns was held before it. -/
theorem Steps.returned (H : Steps c s event t out) (h : .returned key message ∈ out) :
    s.Held c key message := by
  cases H with
  | @hit routingKey asked cached hlookup =>
    cases List.mem_singleton.mp h
    obtain ⟨hcache, hget⟩ := Option.ite_none_right_eq_some.mp hlookup
    exact .inl ⟨hcache, hget⟩
  | stored hcalls =>
    cases List.mem_singleton.mp h
    exact .inr (List.mem_of_getElem? hcalls)
  | confirmed => cases List.mem_singleton.mp h
  | refused | miss | generated | generatorFailed | publishFailed | invalidated | cleared
  | expired => cases h

theorem Fresh.step (h : Fresh c s₀ s log) (H : Steps c s event t out) :
    Fresh c s₀ t (log ++ out) := by
  refine ⟨fun key message hheld => ?_, fun key message before after hlog => ?_⟩
  · rcases H.held hheld with hbefore | hout
    · exact (h.held key message hbefore).imp id (List.mem_append_left out)
    · exact .inr (List.mem_append_right log hout)
  · rcases List.append_eq_append_iff.mp hlog with ⟨rest, rfl, hout⟩ | ⟨rest, rfl, hrest⟩
    · -- it is returned by this step
      have hmem : Output.returned key message ∈ out := by
        rw [hout]
        exact List.mem_append_right rest List.mem_cons_self
      exact (h.held key message (H.returned hmem)).imp id (List.mem_append_left rest)
    · cases rest with
      | nil =>
        have hmem : Output.returned key message ∈ out := by
          rw [List.nil_append] at hrest
          rw [← hrest]
          exact List.mem_cons_self
        have hbefore := h.held key message (H.returned hmem)
        rwa [List.append_nil] at hbefore
      | cons output rest =>
        cases hrest
        exact h.returned key message before rest rfl

theorem fresh_of_reach {ok : State α × List (Output α) → Event α → Prop}
    {w : State α × List (Output α)} (hr : Reach (logged (step c)) ok (s₀, []) w) :
    Fresh c s₀ w.1 w.2 := by
  have hstart : Fresh c s₀ s₀ [] := by
    refine ⟨fun _ _ h => .inl h, fun key message before after hlog => ?_⟩
    cases before <;> cases hlog
  refine hr.invariant (I := fun w => Fresh c s₀ w.1 w.2) hstart fun {w w' event} h _ hs => ?_
  obtain ⟨t, out, hstep, rfl⟩ := logged_eq_some hs
  exact h.step (step_cases hstep)

theorem Drops.gone (h : Drops c key event) (hs : step c s event = some (s₀, out)) :
    s₀.cache.get? (c.cacheKey key) = none ∧ s₀.pending key = s.pending key := by
  cases h with
  | invalidates =>
    cases hs
    exact ⟨OrderedMap.get?_erase_self _ _, rfl⟩
  | clears =>
    cases hs
    exact ⟨rfl, rfl⟩
  | expires =>
    cases hs
    exact ⟨OrderedMap.get?_erase_self _ _, rfl⟩

/-- Once the entry of a key was dropped while no call with the key was between its miss and its
write, every message that a call with the key returns was published with it in between. -/
theorem nothing_stale {w : State α × List (Output α)} {before after : List (Output α)}
    (hdrop : Drops c key event) (hs : step c s event = some (s₀, out))
    (hquiet : s.pending key = []) (hr : Reach (logged (step c)) anyStep (s₀, []) w)
    (hlog : w.2 = before ++ .returned key message :: after) : .published key message ∈ before := by
  obtain ⟨hgone, hpending⟩ := hdrop.gone hs
  exact ((fresh_of_reach hr).returned key message before after hlog).resolve_left
    (not_held hgone (hpending.trans hquiet))

/-- A message of the key is cached. -/
def cachedState : State String := ⟨OrderedMap.empty.set "events:orders" "first", []⟩

/-- A call after the invalidation publishes again, and the next one hits. -/
theorem nothing_stale_invalidated : ∃ (s₀ : State String) (w : State String × List (Output String)),
    step cachedConfig cachedState (.invalidates "orders") = some (s₀, []) ∧
    w.2 = [Output.published "orders" "second", .returned "orders" "second"] ++
      [.returned "orders" "second"] ∧
    Output.published "orders" "second" ∈
      [Output.published "orders" "second", .returned "orders" "second"] := by
  have hs : step cachedConfig cachedState (.invalidates "orders") =
      some ({ cachedState with cache := cachedState.cache.erase "events:orders" }, []) := rfl
  have hrun : (run (logged (step cachedConfig)) anyStep
      ({ cachedState with cache := cachedState.cache.erase "events:orders" }, [])
      [.call "orders" none, .generates 0 (some "second"), .confirmed 0, .resumes 0,
        .call "orders" none]).any (fun w =>
          decide (w.2 = [.published "orders" "second", .returned "orders" "second"] ++
            [.returned "orders" "second"])) := by decide +kernel
  obtain ⟨w, hw, h⟩ := (Option.any_eq_true _ _).mp hrun
  have hlog := of_decide_eq_true h
  exact ⟨_, w, hs, hlog, nothing_stale .invalidates hs rfl (reach_of_run hw) hlog⟩

end PublishWithCache
end RabbitMQ
