import RabbitMQ.Consumers.SequentialProcessor.DependencyOrder

/-! What a processor holds, it holds until it settles it.

A delivery is held while it is parked or its callback runs. Unlike the count of its places this
asks nothing of the hooks: they may throw, and what was thrown need not be rendered. A step lets go
of a delivery only with a report of it, when its callback throws, in a sweep that fails on it, or in
`dispose`. -/

namespace RabbitMQ
namespace SequentialProcessor

variable {α : Type} [DecidableEq α]

namespace State

/-- The delivery waits in `pending`. -/
def Parks (s : State α) (tag : Nat) : Prop :=
  ∃ id data, s.pending.get? id = some data ∧ data.message.tag = tag

/-- The callback of the delivery runs. -/
def Runs (s : State α) (tag : Nat) : Prop :=
  ∃ root stack, s.calls.get? root = some stack ∧ topRuns tag stack

def Retains (s : State α) (tag : Nat) : Prop := s.Parks tag ∨ s.Runs tag

end State

/-- The callback of the delivery throws in this step. -/
def Event.Throws (s : State α) (tag : Nat) : Event α → Prop
  | .callbackRejected root _ => ∃ stack, s.calls.get? root = some stack ∧ topRuns tag stack
  | _ => False

variable {c : Config} {h : Hooks α} {s s' : State α} {out : List (Output α)} {message : Message α}
  {tag root : Nat}

/-- Where a delivery is after a step that leaves it in the hands of the processor. -/
inductive Retained (tag : Nat) (r : State α × List (Output α)) : Prop
  | retains (hretains : r.1.Retains tag)
  | ended {o : Output α} (ho : o ∈ r.2) (hends : o.ends tag)

theorem Retained.append {r : State α × List (Output α)} (hr : Retained tag r) :
    Retained tag (r.1, out ++ r.2) := by
  cases hr with
  | retains hretains => exact .retains hretains
  | ended ho hends => exact .ended (List.mem_append_right _ ho) hends

theorem State.Parks.of_pending (hparks : s.Parks tag) (hpending : s'.pending = s.pending) :
    s'.Parks tag := by
  unfold Parks
  rw [hpending]
  exact hparks

omit [DecidableEq α] in
/-- The stacks of the other calls run what they ran. -/
theorem State.Runs.of_others (hruns : s.Runs tag)
    (hcalls : ∀ r, r ≠ root → s'.calls.get? r = s.calls.get? r)
    (hroot : ∀ stack, s.calls.get? root = some stack → topRuns tag stack = false) :
    s'.Runs tag := by
  obtain ⟨r, stack, hr, htop⟩ := hruns
  refine ⟨r, stack, (hcalls r ?_).trans hr, htop⟩
  rintro rfl
  rw [hroot stack hr] at htop
  cases htop

omit [DecidableEq α] in
/-- The same when the call of `root` is put on another stack. -/
theorem State.Runs.set_calls (hruns : s.Runs tag) {old : List (Frame α)}
    (hold : s.calls.get? root = some old) (htop : topRuns tag old = false)
    (stack : List (Frame α)) : State.Runs { s with calls := s.calls.set root stack } tag := by
  refine hruns.of_others (fun r (hr : r ≠ root) => ?_) fun st hst => ?_
  · exact (OrderedMap.get?_set ..).trans (if_neg hr)
  · cases hst.symm.trans hold
    exact htop

/-- A parked delivery stays when another entry goes. -/
theorem State.Parks.erase_pending (hparks : s.Parks tag) {id : α} {data : Parked α}
    (hget : s.pending.get? id = some data) :
    State.Parks { s with pending := s.pending.erase id } tag ∨ data.message.tag = tag := by
  obtain ⟨id', data', hget', htag⟩ := hparks
  rcases eq_or_ne id' id with rfl | hne
  · cases hget.symm.trans hget'
    exact .inr htag
  · refine .inl ⟨id', data', ?_, htag⟩
    exact (OrderedMap.get?_erase ..).trans ((if_neg hne).trans hget')

/-! ## What each method holds -/

/-- `handle` keeps what is parked. -/
theorem Handles.parks_kept {r : State α × List (Output α) × Progress α} (H : Handles h s message r)
    (hparks : s.Parks tag) : r.1.Parks tag := by
  cases H with
  | duplicate | runs => exact hparks
  | @parks messageId dependsOn hid hd hp =>
    obtain ⟨id, data, hget, htag⟩ := hparks
    refine ⟨id, data, ?_, htag⟩
    simp only [State.park, State.indexPending]
    rw [OrderedMap.get?_set, if_neg]
    · exact hget
    · rintro rfl
      exact hp (OrderedMap.mem_of_get? hget)

/-- The delivery itself is parked, reported or runs. -/
theorem Handles.takes {r : State α × List (Output α) × Progress α} (H : Handles h s message r) :
    r.1.Parks message.tag ∨ (∃ o ∈ r.2.1, o.ends message.tag) ∨
      ∃ frame, r.2.2 = .running frame ∧ topRuns message.tag [frame] := by
  cases H with
  | duplicate =>
    exact .inr (.inl ⟨_, List.mem_singleton_self _, decide_eq_true rfl⟩)
  | parks => exact .inl ⟨_, _, OrderedMap.get?_set_self .., rfl⟩
  | runs => exact .inr (.inr ⟨_, rfl, decide_eq_true rfl⟩)

/-- What `handle` parks was parked, or is the delivery, which waits for its dependency. -/
theorem Handles.parks_cases {r : State α × List (Output α) × Progress α}
    (H : Handles h s message r) (hparks : r.1.Parks tag) :
    s.Parks tag ∨ (message.tag = tag ∧ message.messageId.isSome ∧
      (s.unresolved message.dependsOn).isSome) := by
  cases H with
  | duplicate | runs => exact .inl hparks
  | @parks messageId dependsOn hid hd hp =>
    obtain ⟨id, data, hget, htag⟩ := hparks
    simp only [State.park, State.indexPending] at hget
    rw [OrderedMap.get?_set] at hget
    split at hget
    · cases hget
      exact .inr ⟨htag, by rw [hid]; rfl, by rw [hd]; rfl⟩
    · exact .inl ⟨id, data, hget, htag⟩

theorem settle_pending (result : Except Value Unit) (stack : List (Frame α)) :
    (settle c h root s result stack).1.pending = s.pending := by
  rw [settle_frame]

theorem settle_disposed (result : Except Value Unit) (stack : List (Frame α)) :
    (settle c h root s result stack).1.disposed = s.disposed := by
  rw [settle_frame]

/-- Settling a call touches no other. -/
theorem settle_calls (result : Except Value Unit) (stack : List (Frame α)) {r : Nat}
    (hr : r ≠ root) : (settle c h root s result stack).1.calls.get? r = s.calls.get? r := by
  rw [settle_frame, get?_resumed, if_neg hr]

/-- A call that settles, and was not in its callback, lets go of nothing. -/
theorem State.Retains.settle (hretains : s.Retains tag) (result : Except Value Unit)
    (stack : List (Frame α))
    (hroot : ∀ old, s.calls.get? root = some old → topRuns tag old = false) :
    (SequentialProcessor.settle c h root s result stack).1.Retains tag := by
  rcases hretains with hparks | hruns
  · exact .inl (hparks.of_pending (settle_pending result stack))
  · exact .inr (hruns.of_others (fun r hr => settle_calls result stack hr) hroot)

theorem removeProcessing_retained (hretains : s.Retains tag) (messageId : Option α) (cause : Cause) :
    (s.removeProcessing messageId cause).1.Retains tag := by
  rw [removeProcessing_frame]
  exact hretains

/-- A callback returned: its delivery is reported, and what else is held stays. -/
theorem callbackResolved_retains {startTime : Nat} {rest : List (Frame α)}
    (hcall : s.calls.get? root = some (⟨message, startTime, .callback⟩ :: rest))
    (hretains : s.Retains tag) :
    Retained tag (callbackResolved c h s root ⟨message, startTime, .callback⟩ rest) := by
  rcases eq_or_ne message.tag tag with htag | hne
  · -- the report comes before anything that can throw
    have hnow : (s.removeProcessing message.messageId .success).1.now = s.now := by
      rw [removeProcessing_frame]
    refine .ended (o := .onSuccess message (.ran (s.now - startTime))) ?_ (decide_eq_true htag)
    simp only [callbackResolved, hnow]
    split <;> simp
  · have htop : ∀ old, s.calls.get? root = some old → topRuns tag old = false := by
      intro old hold
      cases hcall.symm.trans hold
      exact decide_eq_false hne
    have hremoved := removeProcessing_retained hretains message.messageId .success
    have hcalls : (s.removeProcessing message.messageId .success).1.calls = s.calls := by
      rw [removeProcessing_frame]
    cases hreturn : h.onSuccess message with
    | error e =>
      simp only [callbackResolved, hreturn]
      exact Retained.append (.retains (hremoved.settle _ _ fun old hold => htop old (hcalls ▸ hold)))
    | ok u =>
      rw [callbackResolved_ok c root hreturn]
      rcases hretains with hparks | hruns
      · exact .retains (.inl hparks)
      · exact .retains (.inr (hruns.set_calls hcall (htop _ hcall) _))

/-- A turn of a release loop: the delivery it visits is parked again, reported or runs. -/
theorem processDependent_retains {frame : Frame α} {pendingId : α} {remaining : List α}
    {rest old : List (Frame α)} (hcall : s.calls.get? root = some old)
    (htop : topRuns tag old = false) (hretains : s.Retains tag) :
    Retained tag (processDependent c h s root frame pendingId remaining rest) := by
  simp only [processDependent]
  split
  · rcases hretains with hparks | hruns
    · exact .retains (.inl hparks)
    · exact .retains (.inr (hruns.set_calls hcall htop _))
  · next data hget =>
    have H := handle_cases h { s with pending := s.pending.erase pendingId } data.message
    have hcalls := congrArg State.calls H.frame
    generalize handle h { s with pending := s.pending.erase pendingId } data.message = r at H hcalls ⊢
    obtain ⟨s₁, out, progress⟩ := r
    dsimp only at hcalls
    have htop₁ : ∀ st, s₁.calls.get? root = some st → topRuns tag st = false := by
      intro st hst
      rw [hcalls, hcall] at hst
      cases hst
      exact htop
    -- what is held before the call of `handle` goes on
    have hheld : s₁.Retains tag ∨ (∃ o ∈ out, o.ends tag) ∨
        ∃ child, progress = .running child ∧ topRuns tag [child] := by
      have hruns : s.Runs tag → s₁.Runs tag := by
        unfold State.Runs
        rw [hcalls]
        exact id
      rcases hretains with hparks | hr
      · rcases hparks.erase_pending hget with hparks | rfl
        · exact .inl (.inl (H.parks_kept hparks))
        · exact H.takes.imp_left .inl
      · exact .inl (.inr (hruns hr))
    have hreported : ∀ r : State α × List (Output α), (∃ o ∈ out, o.ends tag) →
        Retained tag (r.1, Output.visited root rest.length pendingId ::
          Output.removed pendingId .released :: out ++ r.2) := by
      rintro r ⟨o, ho, hends⟩
      refine .ended ?_ hends
      exact List.mem_append_left _ (List.mem_cons_of_mem _ (List.mem_cons_of_mem _ ho))
    rcases hheld with hheld | hended | ⟨child, hprogress, hchild⟩
    · cases progress with
      | resolved => exact Retained.append (.retains (hheld.settle _ _ htop₁))
      | rejected e => exact Retained.append (.retains (hheld.settle _ _ htop₁))
      | running child =>
        refine Retained.append (.retains ?_)
        rcases hheld with hparks | hruns
        · exact .inl hparks
        · exact .inr (hruns.set_calls (hcalls ▸ hcall) htop _)
    · exact hreported _ hended
    · cases hprogress
      refine Retained.append (.retains (.inr ⟨root, _, OrderedMap.get?_set_self .., ?_⟩))
      obtain ⟨m, t, stage⟩ := child
      cases stage with
      | callback => exact hchild
      | dependents => cases hchild

/-- A delivery that is handed over is parked, reported or runs. -/
theorem deliver_retains (hfresh : message.tag ∉ s.calls)
    (hretains : s.Retains tag ∨ message.tag = tag) : Retained tag (deliver h s message) := by
  have H := handle_cases h { s with handled := message.tag :: s.handled } message
  have hcalls := congrArg State.calls H.frame
  simp only [deliver]
  generalize handle h { s with handled := message.tag :: s.handled } message = r at H hcalls ⊢
  obtain ⟨s₁, out, progress⟩ := r
  dsimp only at hcalls
  have hheld : s₁.Retains tag ∨ (∃ o ∈ out, o.ends tag) ∨
      ∃ frame, progress = .running frame ∧ topRuns tag [frame] := by
    rcases hretains with (hparks | hruns) | rfl
    · exact .inl (.inl (H.parks_kept hparks))
    · refine .inl (.inr ?_)
      unfold State.Runs
      rw [hcalls]
      exact hruns
    · exact H.takes.imp_left .inl
  rcases hheld with hheld | ⟨o, ho, hends⟩ | ⟨frame, hprogress, htop⟩
  · cases progress with
    | resolved => exact .retains hheld
    | rejected e => exact .retains hheld
    | running frame =>
      rcases hheld with hparks | hruns
      · exact .retains (.inl hparks)
      · refine .retains (.inr (hruns.of_others (fun r (hr : r ≠ message.tag) => ?_) fun st hst => ?_))
        · exact (OrderedMap.get?_set ..).trans (if_neg hr)
        · rw [hcalls, OrderedMap.not_mem_iff.mp hfresh] at hst
          cases hst
  · cases progress with
    | resolved => exact .ended (List.mem_append_left _ ho) hends
    | rejected e => exact .ended (List.mem_append_left _ ho) hends
    | running frame => exact .ended ho hends
  · cases hprogress
    exact .retains (.inr ⟨message.tag, _, OrderedMap.get?_set_self .., htop⟩)

theorem removePending_parks (messageId dependsOn : α)
    (hparks : (s.removePending messageId dependsOn).Parks tag) : s.Parks tag := by
  obtain ⟨id, data, hget, htag⟩ := hparks
  rw [removePending_frame] at hget
  rw [OrderedMap.get?_erase] at hget
  split at hget
  · cases hget
  · exact ⟨id, data, hget, htag⟩

variable [ToString α]

/-- By induction on the entries: what expires is reported or dropped, what does not stays. -/
theorem sweepPending_retains (entries : List (α × Parked α)) (s : State α)
    (hl : ∀ e ∈ entries, s.pending.get? e.1 = some e.2) (hn : (entries.map Prod.fst).Nodup)
    (hretains : s.Retains tag) : Retained tag (sweepPending c h entries s) := by
  induction entries generalizing s with
  | nil => exact .retains hretains
  | cons e entries ih =>
    obtain ⟨messageId, data⟩ := e
    have hrest := removePending_entries hl hn data.dependsOn
    have hnodup := (List.nodup_cons.mp hn).2
    simp only [sweepPending]
    split
    · have hframe := removePending_frame s messageId data.dependsOn
      have hpending := congrArg State.pending hframe
      have hcalls := congrArg State.calls hframe
      have hheld : (s.removePending messageId data.dependsOn).Retains tag ∨
          data.message.tag = tag := by
        rcases hretains with hparks | hruns
        · exact (hparks.erase_pending (hl _ List.mem_cons_self)).imp_left fun hparks =>
            .inl (hparks.of_pending hpending)
        · refine .inl (.inr ?_)
          unfold State.Runs
          rw [hcalls]
          exact hruns
      split
      · rcases hheld with hheld | htag
        · exact .retains hheld
        · exact .ended (o := .undecided data.message) (by simp) (decide_eq_true htag)
      · next requeue hrequeue =>
        rcases hheld with hheld | htag
        · split
          · exact .retains hheld
          · exact (ih _ hrest hnodup hheld).append
        · refine .ended (o := .onFailure data.message data.expiry requeue .expired) ?_
            (decide_eq_true htag)
          split <;> simp
    · exact ih s (fun e he => hl e (List.mem_cons_of_mem _ he)) hnodup hretains

theorem sweepPending_parks (entries : List (α × Parked α)) (s : State α)
    (hparks : (sweepPending c h entries s).1.Parks tag) : s.Parks tag := by
  induction entries generalizing s with
  | nil => exact hparks
  | cons e entries ih =>
    obtain ⟨messageId, data⟩ := e
    simp only [sweepPending] at hparks
    split at hparks
    · refine removePending_parks messageId data.dependsOn ?_
      split at hparks
      · exact hparks
      · split at hparks
        · exact hparks
        · exact ih _ hparks
    · exact ih s hparks

/-! ## Steps -/

variable {event : Event α} {r : State α × List (Output α)}

/-- A step other than `dispose` keeps what is held, reports or drops it, or its callback throws. -/
theorem Steps.retains (H : Steps c h s event r) (hlater : ∀ message, event ≠ .handle message)
    (hlive : event ≠ .dispose) (hretains : s.Retains tag) :
    Retained tag r ∨ event.Throws s tag := by
  cases H with
  | handle => exact absurd rfl (hlater _)
  | callbackResolved hcall => exact .inl (callbackResolved_retains hcall hretains)
  | @callbackRejected root message startTime rest error hcall =>
    rcases eq_or_ne message.tag tag with htag | hne
    · exact .inr ⟨_, hcall, decide_eq_true htag⟩
    · refine .inl (.retains (hretains.settle _ _ fun old hold => ?_))
      cases hcall.symm.trans hold
      exact decide_eq_false hne
  | loopEnds hcall =>
    refine .inl (.retains (hretains.settle _ _ fun old hold => ?_))
    cases hcall.symm.trans hold
    rfl
  | loopTurns hcall => exact .inl (processDependent_retains hcall rfl hretains)
  | cleanup =>
    have hsweep := sweepPending_retains (c := c) (h := h) s.pending.entries (sweepProcessing c s).1
      (fun e he => OrderedMap.get?_eq_some_iff.mpr he) s.pending.nodup hretains
    exact .inl hsweep.append
  | dispose => exact absurd rfl hlive
  | tick => exact .inl (.retains hretains)

/-- What is parked after a step was parked before. -/
theorem Steps.parks (H : Steps c h s event r) (hlater : ∀ message, event ≠ .handle message)
    (hparks : r.1.Parks tag) : s.Parks tag := by
  cases H with
  | handle => exact absurd rfl (hlater _)
  | @callbackResolved root message startTime rest hcall =>
    refine hparks.of_pending ?_
    simp only [SequentialProcessor.callbackResolved]
    split
    · rw [settle_pending, removeProcessing_frame]
    · rw [removeProcessing_frame, takeDependents_frame]
  | callbackRejected | loopEnds => exact hparks.of_pending (settle_pending _ _).symm
  | @loopTurns root message startTime pendingId remaining rest hcall =>
    simp only [processDependent] at hparks
    split at hparks
    · exact hparks
    · next data hget =>
      have H := handle_cases h { s with pending := s.pending.erase pendingId } data.message
      generalize SequentialProcessor.handle h { s with pending := s.pending.erase pendingId }
        data.message = r at H hparks
      obtain ⟨s₁, out, progress⟩ := r
      have hparks₁ : s₁.Parks tag := by
        cases progress with
        | resolved => exact hparks.of_pending (settle_pending _ _).symm
        | rejected e => exact hparks.of_pending (settle_pending _ _).symm
        | running child => exact hparks
      rcases H.parks_cases hparks₁ with ⟨id, data', hget', htag⟩ | ⟨htag, -⟩
      · rw [OrderedMap.get?_erase] at hget'
        split at hget'
        · cases hget'
        · exact ⟨id, data', hget', htag⟩
      · exact ⟨pendingId, data, hget, htag⟩
  | cleanup => exact sweepPending_parks _ (sweepProcessing c s).1 hparks
  | dispose =>
    obtain ⟨id, data, hget, -⟩ := hparks
    cases hget
  | tick => exact hparks

/-- Only `dispose` disarms the sweep. -/
theorem Steps.disposed (H : Steps c h s event r) (hlater : ∀ message, event ≠ .handle message)
    (hlive : event ≠ .dispose) : r.1.disposed = s.disposed := by
  cases H with
  | handle => exact absurd rfl (hlater _)
  | @callbackResolved root message startTime rest hcall =>
    simp only [SequentialProcessor.callbackResolved]
    split
    · rw [settle_disposed, removeProcessing_frame]
    · rw [removeProcessing_frame, takeDependents_frame]
  | callbackRejected | loopEnds => exact settle_disposed _ _
  | @loopTurns root message startTime pendingId remaining rest hcall =>
    simp only [processDependent]
    split
    · rfl
    · next data hget =>
      have hframe := (handle_cases h { s with pending := s.pending.erase pendingId }
        data.message).frame
      have hdisposed := congrArg State.disposed hframe
      generalize SequentialProcessor.handle h { s with pending := s.pending.erase pendingId }
        data.message = r at hdisposed ⊢
      obtain ⟨s₁, out, progress⟩ := r
      cases progress with
      | resolved => exact (settle_disposed _ _).trans hdisposed
      | rejected e => exact (settle_disposed _ _).trans hdisposed
      | running child => exact hdisposed
  | cleanup => exact (congrArg State.disposed (sweepPending_frame c h s.pending.entries
      (sweepProcessing c s).1) :)
  | dispose => exact absurd rfl hlive
  | tick => rfl

omit [ToString α] in
theorem deliver_disposed : (deliver h s message).1.disposed = s.disposed := by
  have hframe := (handle_cases h { s with handled := message.tag :: s.handled } message).frame
  have hdisposed := congrArg State.disposed hframe
  simp only [deliver]
  generalize SequentialProcessor.handle h { s with handled := message.tag :: s.handled } message = r
    at hdisposed ⊢
  obtain ⟨s₁, out, progress⟩ := r
  cases progress <;> exact hdisposed

omit [ToString α] in
theorem deliver_parks (hparks : (deliver h s message).1.Parks tag) :
    s.Parks tag ∨ (message.tag = tag ∧ message.messageId.isSome ∧
      (s.unresolved message.dependsOn).isSome) := by
  have H := handle_cases h { s with handled := message.tag :: s.handled } message
  simp only [deliver] at hparks
  generalize SequentialProcessor.handle h { s with handled := message.tag :: s.handled } message = r
    at H hparks
  obtain ⟨s₁, out, progress⟩ := r
  refine H.parks_cases ?_
  cases progress <;> exact hparks

end SequentialProcessor
end RabbitMQ
