import RabbitMQ.Consumers.SequentialProcessor.DependencyOrder
import RabbitMQ.Consumers.SequentialProcessor.Wakeup

/-! The index of the dependents is the inverse of `pending` while no release loop is active.

A loop drops the set of its dependency before it walks it, so a parked id is listed or still to be
visited. An exception that ends the loop leaves the ids that it has not reached in neither place;
and what the loop takes out of `pending` stays listed if it was parked anew in the meantime. -/

namespace RabbitMQ
namespace SequentialProcessor

open Transition

variable {α : Type} [DecidableEq α]

variable {c : Config} {h : Hooks α} {s s' : State α} {toVisit : List α} {message : Message α}
  {root : Nat}

/-! ## The index -/

/-- The invariant, with the ids that the loops have to visit as an argument. -/
structure Inverse (s : State α) (toVisit : List α) : Prop where
  stored : ∀ {id data}, s.pending.get? id = some data →
    data.message.messageId = some id ∧ data.message.dependsOn = some data.dependsOn
  indexed : ∀ {id data}, s.pending.get? id = some data →
    id ∈ s.dependentsOf data.dependsOn ∨ id ∈ toVisit
  parked : ∀ {d id}, id ∈ s.dependentsOf d →
    ∃ data, s.pending.get? id = some data ∧ data.dependsOn = d
  nonempty : ∀ {d dependents}, s.pendingByDependency.get? d = some dependents →
    dependents.entries ≠ []

theorem Inverse.mono {toVisit' : List α} (hi : Inverse s toVisit)
    (hv : ∀ id ∈ toVisit, id ∈ toVisit') : Inverse s toVisit' :=
  ⟨hi.stored, fun hp => (hi.indexed hp).imp_right (hv _), hi.parked, hi.nonempty⟩

/-- The invariant reads two maps only. -/
theorem Inverse.congr (hi : Inverse s toVisit) (hpend : s'.pending = s.pending)
    (hindex : s'.pendingByDependency = s.pendingByDependency) : Inverse s' toVisit := by
  have hlist : ∀ d, s'.dependentsOf d = s.dependentsOf d := fun d => by
    rw [State.dependentsOf, hindex, State.dependentsOf]
  refine ⟨fun hp => ?_, fun hp => ?_, fun hl => ?_, fun hget => ?_⟩
  · exact hi.stored (hpend ▸ hp)
  · rw [hlist]
    exact hi.indexed (hpend ▸ hp)
  · rw [hpend]
    exact hi.parked (hlist _ ▸ hl)
  · exact hi.nonempty (hindex ▸ hget)

theorem mem_dependentsOf {d id : α} : id ∈ s.dependentsOf d ↔
    ∃ dependents, s.pendingByDependency.get? d = some dependents ∧ id ∈ dependents := by
  unfold State.dependentsOf
  cases s.pendingByDependency.get? d with
  | none => simp
  | some dependents => simp [OrderedMap.mem_def]

theorem park_nonempty {id d : α}
    (hn : ∀ {d dependents}, s.pendingByDependency.get? d = some dependents →
      dependents.entries ≠ []) {d' : α} {dependents : OrderedMap α Unit}
    (hget : (s.park id d message).pendingByDependency.get? d' = some dependents) :
    dependents.entries ≠ [] := by
  simp only [State.park, State.indexPending, OrderedMap.get?_set] at hget
  split at hget
  · cases hget
    intro hempty
    have hmem : id ∈ ((s.pendingByDependency.get? d).getD .empty).set id () :=
      OrderedMap.mem_set.mpr (.inl rfl)
    rw [OrderedMap.eq_empty_of_entries hempty] at hmem
    exact OrderedMap.not_mem_empty id hmem
  · exact hn hget

/-- A call of `handle`. It may be made while the id of its own delivery is listed and missing from
`pending`, if the delivery has to wait: it takes the id back. -/
theorem Handles.inverse {r : State α × List (Output α) × Progress α} (H : Handles h s message r)
    (hstored : ∀ {id data}, s.pending.get? id = some data →
      data.message.messageId = some id ∧ data.message.dependsOn = some data.dependsOn)
    (hindexed : ∀ {id data}, s.pending.get? id = some data →
      id ∈ s.dependentsOf data.dependsOn ∨ id ∈ toVisit)
    (hparked : ∀ {d id}, id ∈ s.dependentsOf d →
      (∃ data, s.pending.get? id = some data ∧ data.dependsOn = d) ∨
        message.messageId = some id ∧ message.dependsOn = some d ∧ s.Tracks d ∧ id ∉ s.pending)
    (hnonempty : ∀ {d dependents}, s.pendingByDependency.get? d = some dependents →
      dependents.entries ≠ []) : Inverse r.1 toVisit := by
  cases H with
  | @duplicate messageId hid hp =>
    refine ⟨hstored, hindexed, fun hl => (hparked hl).resolve_right ?_, hnonempty⟩
    rintro ⟨hid', _, _, hnot⟩
    cases hid.symm.trans hid'
    exact hnot hp
  | @parks messageId dependsOn hid hd hp =>
    obtain ⟨hdep, _⟩ := unresolved_eq_some hd
    have hget : ∀ id, (s.park messageId dependsOn message).pending.get? id =
        if id = messageId then some ⟨message, dependsOn, s.now⟩ else s.pending.get? id :=
      fun id => OrderedMap.get?_set ..
    refine ⟨fun {id data} hp' => ?_, fun {id data} hp' => ?_, fun {d id} hl => ?_,
      park_nonempty hnonempty⟩
    · rw [hget] at hp'
      split at hp'
      · next heq =>
        cases hp'
        exact ⟨heq ▸ hid, hdep⟩
      · exact hstored hp'
    · rw [dependentsOf_park]
      rw [hget] at hp'
      split at hp'
      · next heq =>
        cases hp'
        left
        rw [if_pos rfl, heq]
        split
        · assumption
        · exact List.mem_append_right _ (List.mem_singleton_self _)
      · refine (hindexed hp').imp_left fun hl => ?_
        split
        · next heq =>
          rw [heq] at hl
          split
          · exact hl
          · exact List.mem_append_left _ hl
        · exact hl
    · have hold : id ∈ s.dependentsOf d ∨ (id = messageId ∧ d = dependsOn) := by
        rw [dependentsOf_park] at hl
        split at hl
        · next heq =>
          rw [heq]
          split at hl
          · exact .inl hl
          · exact (List.mem_append.mp hl).imp_right fun hm => ⟨List.mem_singleton.mp hm, rfl⟩
        · exact .inl hl
      rw [hget]
      rcases hold with hl | ⟨rfl, rfl⟩
      · rcases hparked hl with ⟨data, hp', heq⟩ | ⟨hid', hdep', _, _⟩
        · have hne : id ≠ messageId := by
            rintro rfl
            exact hp (OrderedMap.mem_of_get? hp')
          exact ⟨data, by rw [if_neg hne, hp'], heq⟩
        · cases hid.symm.trans hid'
          cases hdep.symm.trans hdep'
          exact ⟨_, if_pos rfl, rfl⟩
      · exact ⟨_, if_pos rfl, rfl⟩
  | runs hfree =>
    refine ⟨hstored, hindexed, fun {d id} hl => (hparked hl).resolve_right ?_, hnonempty⟩
    rintro ⟨hid, hdep, htracks, _⟩
    rcases hfree with hnone | hnone
    · cases hid.symm.trans hnone
    · rw [hdep] at hnone
      exact Option.some_ne_none d ((if_pos htracks).symm.trans hnone)

/-- A success: the set of dependents goes to the loop. -/
theorem Inverse.succeed (hi : Inverse s toVisit) (messageId : Option α)
    (processing : OrderedMap α Nat) :
    Inverse { s with
        processing
        pendingByDependency := (s.takeDependents messageId).1.pendingByDependency }
      ((s.takeDependents messageId).2 ++ toVisit) := by
  cases messageId with
  | none => exact hi.congr rfl rfl
  | some m =>
    obtain ⟨htaken, hleft⟩ := takeDependents_some s m
    have hleft : ∀ d, State.dependentsOf { s with
        processing
        pendingByDependency := (s.takeDependents (some m)).1.pendingByDependency } d =
        if d = m then [] else s.dependentsOf d := hleft
    refine ⟨hi.stored, fun {id data} hp => ?_, fun {d id} hl => ?_, fun {d dependents} hget => ?_⟩
    · rw [hleft, htaken]
      rcases hi.indexed hp with hl | hv
      · split
        · next heq => exact .inr (List.mem_append_left _ (heq ▸ hl))
        · exact .inl hl
      · exact .inr (List.mem_append_right _ hv)
    · rw [hleft] at hl
      split at hl
      · cases hl
      · exact hi.parked hl
    · refine hi.nonempty (d := d) ?_
      simp only [State.takeDependents] at hget
      split at hget
      · exact hget
      · rw [OrderedMap.get?_erase] at hget
        split at hget
        · cases hget
        · exact hget

/-- An entry expires. -/
theorem Inverse.expire (hi : Inverse s toVisit) {id : α} {data : Parked α}
    (hp : s.pending.get? id = some data) : Inverse (s.removePending id data.dependsOn) toVisit := by
  have hpend : (s.removePending id data.dependsOn).pending = s.pending.erase id :=
    removePending_pending s id data.dependsOn
  have hold : ∀ {id' data'}, (s.removePending id data.dependsOn).pending.get? id' = some data' →
      id' ≠ id ∧ s.pending.get? id' = some data' := by
    intro id' data' hp'
    rw [hpend, OrderedMap.get?_erase] at hp'
    split at hp'
    · cases hp'
    · exact ⟨‹_›, hp'⟩
  refine ⟨fun hp' => hi.stored (hold hp').2, fun {id' data'} hp' => ?_, fun {d id'} hl => ?_,
    fun {d dependents} hget => ?_⟩
  · obtain ⟨hne, hp'⟩ := hold hp'
    refine (hi.indexed hp').imp_left fun hl => ?_
    rw [dependentsOf_removePending]
    split
    · next heq => exact List.mem_filter.mpr ⟨heq ▸ hl, decide_eq_true hne⟩
    · exact hl
  · rw [dependentsOf_removePending] at hl
    rw [hpend, OrderedMap.get?_erase]
    split at hl
    · next heq =>
      obtain ⟨hl, hne⟩ := List.mem_filter.mp hl
      rw [if_neg (of_decide_eq_true hne), heq]
      exact hi.parked hl
    · next hne =>
      obtain ⟨data', hp', heq⟩ := hi.parked hl
      refine ⟨data', ?_, heq⟩
      rw [if_neg, hp']
      rintro rfl
      cases hp.symm.trans hp'
      exact hne heq.symm
  · simp only [State.removePending] at hget
    split at hget
    · exact hi.nonempty hget
    · split at hget
      · rw [OrderedMap.get?_erase] at hget
        split at hget
        · cases hget
        · exact hi.nonempty hget
      · next hmore =>
        rw [OrderedMap.get?_set] at hget
        split at hget
        · cases hget
          intro hempty
          rw [hempty] at hmore
          exact hmore rfl
        · exact hi.nonempty hget

/-- A loop visits an id that is gone. -/
theorem Inverse.skip {id : α} (hi : Inverse s (id :: toVisit)) (hp : s.pending.get? id = none) :
    Inverse s toVisit := by
  refine ⟨hi.stored, fun {id' data} hp' => (hi.indexed hp').imp_right fun hv => ?_, hi.parked,
    hi.nonempty⟩
  refine (List.mem_cons.mp hv).resolve_left ?_
  rintro rfl
  cases hp.symm.trans hp'

/-- A loop visits an id that is still parked, and hands its delivery to `handle`. When the id is
listed, it was parked anew, and its delivery has to wait again. -/
theorem Inverse.release {id : α} {data : Parked α} {r : State α × List (Output α) × Progress α}
    (hi : Inverse s (id :: toVisit)) (hp : s.pending.get? id = some data)
    (hwaits : id ∈ s.dependentsOf data.dependsOn →
      State.Tracks { s with pending := s.pending.erase id } data.dependsOn)
    (H : Handles h { s with pending := s.pending.erase id } data.message r) :
    Inverse r.1 toVisit := by
  have hold : ∀ {id' data'}, (s.pending.erase id).get? id' = some data' →
      id' ≠ id ∧ s.pending.get? id' = some data' := by
    intro id' data' hp'
    rw [OrderedMap.get?_erase] at hp'
    split at hp'
    · cases hp'
    · exact ⟨‹_›, hp'⟩
  refine H.inverse (fun hp' => hi.stored (hold hp').2) (fun {id' data'} hp' => ?_)
    (fun {d id'} hl => ?_) hi.nonempty
  · obtain ⟨hne, hp'⟩ := hold hp'
    exact (hi.indexed hp').imp_right fun hv => (List.mem_cons.mp hv).resolve_left hne
  · obtain ⟨data', hp', heq⟩ := hi.parked hl
    by_cases hid : id' = id
    · subst hid
      cases hp.symm.trans hp'
      obtain ⟨hmessage, hdep⟩ := hi.stored hp
      refine .inr ⟨hmessage, heq ▸ hdep, heq ▸ hwaits (heq ▸ hl), fun hm => ?_⟩
      exact (OrderedMap.mem_erase.mp hm).1 rfl
    · refine .inl ⟨data', ?_, heq⟩
      rw [OrderedMap.get?_erase, if_neg hid, hp']

/-! ## Runs -/

/-- What the loops of `root` have to visit and lose when a call on top of them settles with this
result has left `pending`, is listed, or is to be visited by another loop. -/
def Spares (c : Config) (h : Hooks α) (s : State α) (root : Nat) (result : Except Value Unit)
    (stack : List (Frame α)) : Prop :=
  ∀ id ∈ stack.flatMap Frame.remaining, ∀ data ∈ s.pending.get? id,
    id ∈ s.dependentsOf data.dependsOn ∨
      id ∈ (unwind c h result stack).flatMap Frame.remaining ++ visitsOf (s.calls.erase root)

instance (stack : List (Frame α)) (result : Except Value Unit) :
    Decidable (Spares c h s root result stack) :=
  inferInstanceAs (Decidable (∀ id ∈ _, ∀ data ∈ _, _ ∨ _))

/-- A delivery that was parked anew, while a loop had its id to visit, still has to wait when the
loop takes it. -/
def StillWaits (s : State α) (id : α) : Prop :=
  ∀ data ∈ s.pending.get? id, id ∈ s.dependentsOf data.dependsOn →
    State.Tracks { s with pending := s.pending.erase id } data.dependsOn

instance (id : α) : Decidable (StillWaits s id) :=
  inferInstanceAs (Decidable (∀ data ∈ _, _ → _))

/-- The steps that end no loop over a parked id, release no id that was parked anew and can run,
and dispose nothing. -/
def Indexing (c : Config) (s : State α) (input : Hooks α × Event α) : Prop :=
  match input.2 with
  | .callbackResolved root => ∀ stack ∈ s.calls.get? root, ∀ frame ∈ stack.head?,
      Spares c input.1 s root (input.1.onSuccess frame.message) stack
  | .callbackRejected root error => ∀ stack ∈ s.calls.get? root,
      Spares c input.1 s root (.error error) stack
  | .processDependents root => ∀ stack ∈ s.calls.get? root, ∀ frame ∈ stack.head?,
      ∀ id ∈ frame.remaining.head?, StillWaits s id
  | .dispose => False
  | _ => True

instance (input : Hooks α × Event α) : Decidable (Indexing c s input) := by
  unfold Indexing
  split <;> infer_instance

def Stage.isLoop : Stage α → Bool
  | .callback => false
  | .dependents _ => true

/-- No `#processDependents` loop is active. -/
def State.Idle (s : State α) : Prop :=
  ∀ e ∈ s.calls.entries, ∀ frame ∈ e.2, ¬ frame.stage.isLoop

omit [DecidableEq α] in
instance : Decidable s.Idle :=
  inferInstanceAs (Decidable (∀ e ∈ s.calls.entries, ∀ frame ∈ e.2, ¬ frame.stage.isLoop))

omit [DecidableEq α] in
theorem toVisit_of_idle (h : s.Idle) : s.toVisit = [] := by
  refine List.flatMap_eq_nil_iff.mpr fun e he => List.flatMap_eq_nil_iff.mpr fun frame hf => ?_
  have hstage := h e he frame hf
  obtain ⟨message, startTime, stage⟩ := frame
  cases stage with
  | callback => rfl
  | dependents ids => exact absurd rfl hstage

/-- The invariant of a run. -/
structure Kept (s : State α) : Prop where
  roots : ∀ {root stack}, s.calls.get? root = some stack → root ∈ s.handled
  inverse : Inverse s s.toVisit

theorem kept_start : Kept (start : State α) where
  roots hr := by cases hr
  inverse :=
    { stored := fun hp => by cases hp
      indexed := fun hp => by cases hp
      parked := fun hl => by cases hl
      nonempty := fun hget => by cases hget }

/-- The obligation of a step that puts the stack `new` in place of the one of `root`. -/
private theorem Kept.move {old : List (Frame α)} (hk : Kept s) (hcall : s.calls.get? root = some old)
    (new : List (Frame α)) (hcalls : s'.calls = resumed s.calls root new)
    (hhandled : s'.handled = s.handled)
    (hi : Inverse s' (new.flatMap Frame.remaining ++ visitsOf (s.calls.erase root))) : Kept s' := by
  refine ⟨fun {r stack} hr => ?_, hi.mono fun id hv => ?_⟩
  · exact hhandled ▸ roots_resumed hk.roots hcall new (hcalls ▸ hr)
  · rw [State.toVisit, hcalls]
    exact (visitsOf_resumed s.calls root new).mem_iff.mpr hv

theorem Kept.split (hk : Kept s) {stack : List (Frame α)} (hcall : s.calls.get? root = some stack) :
    Inverse s (stack.flatMap Frame.remaining ++ visitsOf (s.calls.erase root)) :=
  hk.inverse.mono fun _ hv => (visitsOf_get? hcall).mem_iff.mp hv

/-- A call settles, and spares what the loops lose. -/
theorem Kept.settle (hk : Kept s) {stack : List (Frame α)} (hcall : s.calls.get? root = some stack)
    (result : Except Value Unit) (hspares : Spares c h s root result stack)
    (hcalls : s'.calls = s.calls) (hpend : s'.pending = s.pending)
    (hindex : s'.pendingByDependency = s.pendingByDependency) (hhandled : s'.handled = s.handled) :
    Kept (SequentialProcessor.settle c h root s' result stack).1 := by
  have hframe := settle_frame c h root s' result stack
  have hcalls' := congrArg State.calls hframe
  have hpend' := congrArg State.pending hframe
  have hindex' := congrArg State.pendingByDependency hframe
  have hhandled' := congrArg State.handled hframe
  refine hk.move hcall (unwind c h result stack) (hcalls ▸ hcalls') (hhandled'.trans hhandled) ?_
  have hi := hk.split hcall
  refine Inverse.congr ⟨hi.stored, fun {id data} hp => ?_, hi.parked, hi.nonempty⟩
    (hpend'.trans hpend) (hindex'.trans hindex)
  rcases hi.indexed hp with hl | hv
  · exact .inl hl
  · rcases List.mem_append.mp hv with hv | hv
    · exact hspares id hv data hp
    · exact .inr (List.mem_append_right _ hv)

variable [ToString α]

theorem Kept.steps {event : Event α} {r : State α × List (Output α)} (hk : Kept s)
    (hok : Indexing c s (h, event)) (hs : Steps c h s event r) : Kept r.1 := by
  have hcalm : Settles c s (h, event) → Calm c h s event r := fun hsettles =>
    calm_cases (fun hp => (hk.inverse.stored hp).1) hsettles hs
  have hnew : ∀ {message : Message α} {r}, Handles h { s with handled := message.tag :: s.handled }
      message r → Inverse r.1 s.toVisit := fun H =>
    H.inverse hk.inverse.stored hk.inverse.indexed (fun hl => .inl (hk.inverse.parked hl))
      hk.inverse.nonempty
  cases event with
  | handle message =>
    cases hcalm trivial with
    | @handled _ s₁ out progress result hfresh H =>
      have hcalls : s₁.calls = s.calls := (congrArg State.calls H.frame :)
      have hhandled : s₁.handled = message.tag :: s.handled := (congrArg State.handled H.frame :)
      refine ⟨fun hr => hhandled ▸ List.mem_cons_of_mem _ (hk.roots (hcalls ▸ hr)), ?_⟩
      have hvisit : s₁.toVisit = s.toVisit := congrArg visitsOf hcalls
      exact hvisit ▸ hnew H
    | @started _ s₁ out child hfresh H =>
      have hhandled : s₁.handled = message.tag :: s.handled := (congrArg State.handled H.frame :)
      refine ⟨fun hr => hhandled ▸ roots_started hk.roots hr,
        ((hnew H).mono fun id hv => ?_).congr rfl rfl⟩
      exact (visitsOf_started hk.roots hfresh child).mem_iff.mpr (List.mem_append_right _ hv)
  | callbackResolved root =>
    cases hs with
    | @callbackResolved _ message startTime rest hcall =>
      have hspares := hok _ hcall _ rfl
      have hframe := removeProcessing_frame s message.messageId .success
      cases hreturn : h.onSuccess message with
      | error e =>
        rw [show h.onSuccess (Frame.mk message startTime .callback).message = .error e from hreturn]
          at hspares
        simp only [callbackResolved, hreturn]
        rw [hframe]
        exact hk.settle hcall (.error e) hspares rfl rfl rfl rfl
      | ok _ =>
        rw [callbackResolved_ok c root hreturn]
        have hpend : (s.removeProcessing message.messageId .success).1.pending = s.pending :=
          (congrArg State.pending hframe :)
        have hindex : (s.removeProcessing message.messageId .success).1.pendingByDependency =
            s.pendingByDependency := (congrArg State.pendingByDependency hframe :)
        have hi := ((hk.split hcall).congr hpend hindex).succeed message.messageId .empty
        refine hk.move hcall (⟨message, startTime, .dependents _⟩ :: rest) rfl rfl ?_
        exact (hi.mono fun id hv => by simpa [Frame.remaining, or_assoc] using hv).congr hpend.symm rfl
  | callbackRejected root error =>
    cases hs with
    | callbackRejected hcall => exact hk.settle hcall _ (hok _ hcall) rfl rfl rfl rfl
  | processDependents root =>
    cases hcalm trivial with
    | @loopEnds _ message startTime rest hcall =>
      exact hk.move hcall rest rfl rfl ((hk.split hcall).congr rfl rfl)
    | @skips _ message startTime pendingId remaining rest hcall hp =>
      refine hk.move hcall (⟨message, startTime, .dependents remaining⟩ :: rest) rfl rfl ?_
      exact ((hk.split hcall).skip hp).congr rfl rfl
    | @releases _ message startTime pendingId remaining rest data s₁ out progress hcall hp H =>
      have hhandled : s₁.handled = s.handled := (congrArg State.handled H.frame :)
      have hwaits := hok _ hcall _ rfl pendingId rfl data hp
      refine hk.move hcall (progress.onto (⟨message, startTime, .dependents remaining⟩ :: rest))
        ?_ hhandled ?_
      · cases progress <;> rfl
      · have hstack : (progress.onto (⟨message, startTime, .dependents remaining⟩ :: rest)).flatMap
            Frame.remaining = remaining ++ rest.flatMap Frame.remaining := H.onto_remaining _
        rw [hstack]
        exact ((hk.split hcall).release hp hwaits H).congr rfl rfl
  | cleanup =>
    have hframe := sweepPending_frame c h s.pending.entries (sweepProcessing c s).1
    have hcalls : (cleanup c h s).1.calls = s.calls := (congrArg State.calls hframe :)
    have hhandled : (cleanup c h s).1.handled = s.handled := (congrArg State.handled hframe :)
    cases hs with
    | cleanup =>
      refine ⟨fun hr => hhandled ▸ hk.roots (hcalls ▸ hr), ?_⟩
      have hvisit : (cleanup c h s).1.toVisit = s.toVisit := congrArg visitsOf hcalls
      rw [hvisit]
      exact sweepPending_keeps (P := fun s' => Inverse s' s.toVisit)
        (fun hi hp => hi.expire hp) s.pending.entries (hk.inverse.congr rfl rfl)
        (fun e he => OrderedMap.get?_eq_some_iff.mpr he) s.pending.nodup
  | dispose => exact hok.elim
  | tick elapsed =>
    cases hs with
    | tick => exact ⟨hk.roots, hk.inverse.congr rfl rfl⟩

theorem Kept.of_reach {w : State α × List (Output α)}
    (hr : Reach (logged (step c)) (fun w => Indexing c w.1) (start, []) w) : Kept w.1 := by
  refine hr.invariant (I := fun w => Kept w.1) kept_start fun hk hok hlogged => ?_
  obtain ⟨s', out, hs, rfl⟩ := logged_eq_some hlogged
  have hnext := hk.steps hok (step_cases hs)
  exact hnext

/-- The index is the exact inverse of `pending`. -/
structure IndexInverse (s : State α) : Prop where
  listed : ∀ d id,
    (∃ dependents, s.pendingByDependency.get? d = some dependents ∧ id ∈ dependents) ↔
      ∃ data, s.pending.get? id = some data ∧ data.dependsOn = d
  nonempty : ∀ d dependents, s.pendingByDependency.get? d = some dependents →
    dependents.entries ≠ []

/-- In a run that ends no release loop over a parked id, and releases no id that was parked anew
and can run, the index is the inverse of `pending` in every state in which no loop is active. -/
theorem index_inverse {w : State α × List (Output α)}
    (hr : Reach (logged (step c)) (fun w => Indexing c w.1) (start, []) w) (hidle : w.1.Idle) :
    IndexInverse w.1 := by
  have hi := (Kept.of_reach hr).inverse
  rw [toVisit_of_idle hidle] at hi
  refine ⟨fun d id => ⟨fun hl => hi.parked (mem_dependentsOf.mpr hl), ?_⟩, fun _ _ => hi.nonempty⟩
  rintro ⟨data, hp, rfl⟩
  exact mem_dependentsOf.mp ((hi.indexed hp).resolve_right List.not_mem_nil)

/-- A loop releases the first of two dependents. While its callback runs the second expires, and is
parked anew under the redelivered dependency. -/
def parkedAnewRun (later : List (Event String)) : List (Hooks String × Event String) :=
  let events : List (Event String) := [.handle { tag := 1, messageId := some "order" },
    .handle { tag := 2, messageId := some "first", dependsOn := some "order" },
    .handle { tag := 3, messageId := some "second", dependsOn := some "order" },
    .callbackResolved 1, .processDependents 1, .tick 30001, .cleanup,
    .handle { tag := 4, messageId := some "order" },
    .handle { tag := 5, messageId := some "second", dependsOn := some "order" }]
  (events ++ later).map (Hooks.returning false, ·)

/-- The dependency still runs when the loop takes the second, which goes back to where it was. -/
theorem index_inverse_run : ∃ w : State String × List (Output String),
    (w.1.pending.get? "second").map (·.dependsOn) = some "order" ∧ IndexInverse w.1 := by
  have hrun : (run (logged (step ⟨30000, true⟩)) (fun w => Indexing ⟨30000, true⟩ w.1) (start, [])
      (parkedAnewRun [.callbackResolved 1, .processDependents 1, .processDependents 1,
        .processDependents 1])).any fun w =>
          w.1.Idle ∧ (w.1.pending.get? "second").map (·.dependsOn) = some "order" := by
    decide +kernel
  obtain ⟨w, hw, h⟩ := (Option.any_eq_true _ _).mp hrun
  obtain ⟨hidle, hparked⟩ := of_decide_eq_true h
  exact ⟨w, hparked, index_inverse (reach_of_run hw) hidle⟩

/-- The redelivered dependency fails before the loop takes the second, which runs and stays
listed. -/
theorem released_stays_listed : ∃ w : State String × List (Output String),
    Reach (logged (step ⟨30000, true⟩)) (fun _ i => i.2 ≠ .dispose) (start, []) w ∧
      w.1.Idle ∧ ¬ IndexInverse w.1 := by
  let later : List (Event String) := [.callbackRejected 4 (.error "no stock"), .callbackResolved 1,
    .processDependents 1, .processDependents 1, .callbackResolved 1, .processDependents 1,
    .processDependents 1]
  have hok : ∀ i ∈ parkedAnewRun later, ∀ _ : State String × List (Output String),
      i.2 ≠ .dispose := by simp [parkedAnewRun, later]
  have hrun : (run (logged (step ⟨30000, true⟩)) anyStep (start, []) (parkedAnewRun later)).any
      fun w => w.1.Idle ∧ "second" ∈ w.1.dependentsOf "order" ∧ "second" ∉ w.1.pending := by
    decide +kernel
  obtain ⟨w, hw, h⟩ := (Option.any_eq_true _ _).mp hrun
  obtain ⟨hidle, hlisted, hgone⟩ := of_decide_eq_true h
  refine ⟨w, reach_of_run_of_forall hok hw, hidle, fun hinverse => hgone ?_⟩
  obtain ⟨data, hp, _⟩ := (hinverse.listed "order" "second").mp (mem_dependentsOf.mp hlisted)
  exact OrderedMap.mem_of_get? hp

end SequentialProcessor
end RabbitMQ
