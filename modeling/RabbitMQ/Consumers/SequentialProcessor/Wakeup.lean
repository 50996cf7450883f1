import RabbitMQ.Consumers.SequentialProcessor.Conservation

/-! No parked delivery is forgotten.

`pendingByDependency` lists what waits for an id; the loop of `#processDependents` takes such a
list away before it walks it, so a parked delivery is either listed or still to be visited by some
loop. A list exists only while its id is in `processing` or `pending`, or has left them by a
failure or an expiry: those settle the dependents by the sweep. -/

namespace RabbitMQ
namespace SequentialProcessor

open Transition

variable {α : Type}

/-- The ids a suspended call has still to visit. -/
def Frame.remaining (frame : Frame α) : List α :=
  match frame.stage with
  | .callback => []
  | .dependents remaining => remaining

def visitsOf (calls : OrderedMap Nat (List (Frame α))) : List α :=
  calls.entries.flatMap fun e => e.2.flatMap Frame.remaining

/-- The ids the running loops have still to visit. -/
def State.toVisit (s : State α) : List α := visitsOf s.calls

variable [DecidableEq α]

/-- The ids listed under a dependency, in the order of the list. -/
def State.dependentsOf (s : State α) (dependsOn : α) : List α :=
  ((s.pendingByDependency.get? dependsOn).map OrderedMap.keys).getD []

def State.Tracks (s : State α) (id : α) : Prop := id ∈ s.processing ∨ id ∈ s.pending

instance (s : State α) (id : α) : Decidable (s.Tracks id) := inferInstanceAs (Decidable (_ ∨ _))

def Output.removal (id : α) : Output α → Option Cause
  | .removed id' cause => if id' = id then some cause else none
  | _ => none

/-- Why an id was last removed from `processing` or `pending`. -/
def lastRemoval (log : List (Output α)) (id : α) : Option Cause :=
  (log.filterMap (·.removal id)).getLast?

/-- The id last left `processing` or `pending` by a failure or an expiry. -/
def LeftFailing (log : List (Output α)) (id : α) : Prop :=
  lastRemoval log id = some .failure ∨ lastRemoval log id = some .expired

instance (log : List (Output α)) (id : α) : Decidable (LeftFailing log id) :=
  inferInstanceAs (Decidable (_ ∨ _))

/-- What wakes the delivery parked as `id` under `dependsOn`. -/
def Awaited (w : State α × List (Output α)) (id dependsOn : α) : Prop :=
  w.1.Tracks dependsOn ∨ id ∈ w.1.toVisit ∨ LeftFailing w.2 dependsOn

instance (w : State α × List (Output α)) (id dependsOn : α) : Decidable (Awaited w id dependsOn) :=
  inferInstanceAs (Decidable (_ ∨ _ ∨ _))

/-- The invariant, with the ids the loops have to visit as an argument. -/
structure Wakeful (s : State α) (log : List (Output α)) (toVisit : List α) : Prop where
  stored : ∀ {id data}, s.pending.get? id = some data →
    data.message.messageId = some id ∧ data.message.dependsOn = some data.dependsOn
  indexed : ∀ {id data}, s.pending.get? id = some data →
    id ∈ s.dependentsOf data.dependsOn ∨ id ∈ toVisit
  awaited : ∀ {d id}, id ∈ s.dependentsOf d → s.Tracks d ∨ LeftFailing log d

variable {c : Config} {h : Hooks α} {s s' : State α} {log out : List (Output α)}
  {toVisit : List α} {message : Message α} {root : Nat} {frame : Frame α}

theorem Wakeful.wakes (hw : Wakeful s log s.toVisit) {id : α} {data : Parked α}
    (hp : s.pending.get? id = some data) : Awaited (s, log) id data.dependsOn := by
  rcases hw.indexed hp with hi | hv
  · exact (hw.awaited hi).imp_right .inr
  · exact .inr (.inl hv)

/-! ## Removals -/

theorem lastRemoval_append (log out : List (Output α)) (id : α) :
    lastRemoval (log ++ out) id = (lastRemoval out id).or (lastRemoval log id) := by
  rw [lastRemoval, List.filterMap_append, List.getLast?_append, lastRemoval, lastRemoval]

theorem lastRemoval_removed (id d : α) (cause : Cause) :
    lastRemoval [.removed id cause] d = if id = d then some cause else none := by
  simp only [lastRemoval, List.filterMap_cons, Output.removal, List.filterMap_nil]
  by_cases h : id = d <;> simp [h]

theorem lastRemoval_map (ids : List α) (cause : Cause) (d : α) :
    lastRemoval (ids.map fun id => .removed id cause) d = if d ∈ ids then some cause else none := by
  induction ids with
  | nil => rfl
  | cons id ids ih =>
    rw [List.map_cons, ← List.singleton_append, lastRemoval_append, ih, lastRemoval_removed]
    by_cases hd : d ∈ ids
    · simp [hd]
    · simp [hd, eq_comm]

theorem lastRemoval_removeProcessing (s : State α) (id : α) (cause : Cause) (d : α) :
    lastRemoval (s.removeProcessing (some id) cause).2 d =
      if id ∈ s.processing ∧ id = d then some cause else none := by
  simp only [State.removeProcessing]
  by_cases hm : id ∈ s.processing
  · simp only [hm, if_true, true_and, lastRemoval_removed]
  · simp [hm, lastRemoval]

theorem LeftFailing.append' {id : α} (hf : LeftFailing out id) : LeftFailing (log ++ out) id := by
  rw [LeftFailing, lastRemoval_append]
  exact hf.imp (fun h => by rw [h]; rfl) fun h => by rw [h]; rfl

theorem LeftFailing.append {id : α} (hl : LeftFailing log id)
    (hout : lastRemoval out id = none ∨ LeftFailing out id) : LeftFailing (log ++ out) id := by
  rw [LeftFailing, lastRemoval_append]
  rcases hout with hn | hf
  · rw [hn]
    exact hl
  · rw [← lastRemoval_append]
    exact hf.append'

/-! ## The index -/

theorem dependentsOf_park (s : State α) (id d : α) (message : Message α) (d' : α) :
    (s.park id d message).dependentsOf d' =
      if d' = d then
        if id ∈ s.dependentsOf d then s.dependentsOf d else s.dependentsOf d ++ [id]
      else s.dependentsOf d' := by
  simp only [State.dependentsOf, State.park, State.indexPending, OrderedMap.get?_set]
  by_cases hd : d' = d
  · subst hd
    simp only [if_true, Option.map_some, Option.getD_some]
    have hkeys : ∀ m : OrderedMap α Unit, (m.set id ()).keys =
        if id ∈ m.keys then m.keys else m.keys ++ [id] := by
      intro m
      split
      · exact OrderedMap.keys_set_of_mem ‹_› _
      · exact OrderedMap.keys_set_of_not_mem ‹_› _
    have hdefault : ∀ o : Option (OrderedMap α Unit),
        (o.getD .empty).keys = (o.map OrderedMap.keys).getD [] := by
      intro o
      cases o <;> rfl
    simp only [hkeys, hdefault]
    exact if_congr .rfl rfl rfl
  · simp only [if_neg hd]

theorem dependentsOf_removePending (s : State α) (id d d' : α) :
    (s.removePending id d).dependentsOf d' =
      if d' = d then (s.dependentsOf d).filter (· ≠ id) else s.dependentsOf d' := by
  simp only [State.dependentsOf, State.removePending]
  cases hget : s.pendingByDependency.get? d with
  | none =>
    by_cases hd : d' = d
    · subst hd; simp [hget]
    · simp [hd]
  | some dependents =>
    simp only
    split
    · rename_i hempty
      rw [OrderedMap.get?_erase]
      by_cases hd : d' = d
      · subst hd
        have hnil : (dependents.erase id).keys = [] := by
          rw [OrderedMap.keys, List.isEmpty_iff.mp hempty]; rfl
        rw [OrderedMap.keys_erase] at hnil
        simp only [if_true, Option.map_none, Option.map_some, Option.getD_none, Option.getD_some,
          hnil]
      · simp [hd]
    · rw [OrderedMap.get?_set]
      by_cases hd : d' = d
      · subst hd; simp [OrderedMap.keys_erase]
      · simp [hd]

theorem takeDependents_some (s : State α) (id : α) :
    (s.takeDependents (some id)).2 = s.dependentsOf id ∧
      ∀ d, (s.takeDependents (some id)).1.dependentsOf d =
        if d = id then [] else s.dependentsOf d := by
  simp only [State.takeDependents, State.dependentsOf]
  cases hget : s.pendingByDependency.get? id with
  | none =>
    refine ⟨rfl, fun d => ?_⟩
    by_cases hd : d = id
    · subst hd; simp [hget]
    · simp [hd]
  | some dependents =>
    refine ⟨rfl, fun d => ?_⟩
    simp only [OrderedMap.get?_erase]
    by_cases hd : d = id <;> simp [hd]

/-! ## What is still to visit -/

omit [DecidableEq α] in
theorem visitsOf_set (calls : OrderedMap Nat (List (Frame α))) (root : Nat)
    (stack : List (Frame α)) : (visitsOf (calls.set root stack)).Perm
      (stack.flatMap Frame.remaining ++ visitsOf (calls.erase root)) :=
  (OrderedMap.perm_set calls root stack).flatMap_right _

omit [DecidableEq α] in
theorem visitsOf_get? {calls : OrderedMap Nat (List (Frame α))} {stack : List (Frame α)}
    (hcall : calls.get? root = some stack) : (visitsOf calls).Perm
      (stack.flatMap Frame.remaining ++ visitsOf (calls.erase root)) :=
  (OrderedMap.perm_erase_of_get? hcall).flatMap_right _

/-! ## What keeps the invariant -/

theorem unresolved_eq_some {dependsOn : Option α} {d : α}
    (hd : s.unresolved dependsOn = some d) : dependsOn = some d ∧ s.Tracks d := by
  cases dependsOn with
  | none => cases hd
  | some d' =>
    simp only [State.unresolved] at hd
    split at hd
    · cases hd; exact ⟨rfl, ‹_›⟩
    · cases hd

/-- A call of `handle`. It may be made while the id of its own delivery is missing from both maps:
the delivery takes it back. -/
theorem Handles.wakeful {r : State α × List (Output α) × Progress α} (H : Handles h s message r)
    (hstored : ∀ {id data}, s.pending.get? id = some data →
      data.message.messageId = some id ∧ data.message.dependsOn = some data.dependsOn)
    (hindexed : ∀ {id data}, s.pending.get? id = some data →
      id ∈ s.dependentsOf data.dependsOn ∨ id ∈ toVisit)
    (hawaited : ∀ {d id}, id ∈ s.dependentsOf d → s.Tracks d ∨ LeftFailing log d ∨
      message.messageId = some d ∧ d ∉ s.pending) : Wakeful r.1 log toVisit := by
  cases H with
  | @duplicate messageId hid hp =>
    refine ⟨hstored, hindexed, fun hi => ?_⟩
    rcases hawaited hi with ht | hl | ⟨hm, hnot⟩
    · exact .inl ht
    · exact .inr hl
    · rw [hid] at hm
      cases hm
      exact absurd hp hnot
  | @parks messageId dependsOn hid hd hp =>
    obtain ⟨hdep, htracks⟩ := unresolved_eq_some hd
    have hget : ∀ id, (s.park messageId dependsOn message).pending.get? id =
        if id = messageId then some ⟨message, dependsOn, s.now⟩ else s.pending.get? id :=
      fun id => OrderedMap.get?_set _ _ _ _
    have hmono : ∀ {d}, s.Tracks d → (s.park messageId dependsOn message).Tracks d := fun ht =>
      ht.imp_right fun hm => OrderedMap.mem_set.mpr (.inr hm)
    have hmem : ∀ {id d}, id ∈ s.dependentsOf d →
        id ∈ (s.park messageId dependsOn message).dependentsOf d := by
      intro id d hi
      rw [dependentsOf_park]
      split
      · subst_vars
        split
        · exact hi
        · exact List.mem_append_left _ hi
      · exact hi
    refine ⟨fun {id data} hp' => ?_, fun {id data} hp' => ?_, fun {d id} hi => ?_⟩
    · rw [hget] at hp'
      split at hp'
      · subst_vars
        cases hp'
        exact ⟨hid, hdep⟩
      · exact hstored hp'
    · rw [hget] at hp'
      split at hp'
      · subst_vars
        cases hp'
        refine .inl ?_
        rw [dependentsOf_park, if_pos rfl]
        split
        · assumption
        · simp
      · exact (hindexed hp').imp_left hmem
    · have hcases : id ∈ s.dependentsOf d ∨ d = dependsOn := by
        rw [dependentsOf_park] at hi
        split at hi
        · exact .inr ‹_›
        · exact .inl hi
      rcases hcases with hi | rfl
      · rcases hawaited hi with ht | hl | ⟨hm, _⟩
        · exact .inl (hmono ht)
        · exact .inr hl
        · rw [hid] at hm
          cases hm
          exact .inl (.inr (OrderedMap.mem_set.mpr (.inl rfl)))
      · exact .inl (hmono htracks)
  | runs hfree =>
    refine ⟨hstored, hindexed, fun {d id} hi => ?_⟩
    have hmono : s.Tracks d ∨ message.messageId = some d → (s.process message).1.Tracks d := by
      intro ht
      simp only [State.Tracks, State.process]
      cases hid : message.messageId with
      | none => simpa [hid, State.Tracks] using ht
      | some id' =>
        simp only [OrderedMap.mem_set]
        rw [hid] at ht
        rcases ht with (ht | ht) | ht
        · exact .inl (.inr ht)
        · exact .inr ht
        · cases ht
          exact .inl (.inl rfl)
    rcases hawaited hi with ht | hl | ⟨hm, _⟩
    · exact .inl (hmono (.inl ht))
    · exact .inr hl
    · exact .inl (hmono (.inr hm))

theorem Wakeful.mono {toVisit' : List α} (hw : Wakeful s log toVisit)
    (hv : ∀ id ∈ toVisit, id ∈ toVisit') : Wakeful s log toVisit' :=
  ⟨hw.stored, fun hp => (hw.indexed hp).imp_right (hv _), hw.awaited⟩

/-- The invariant reads the three maps only. -/
theorem Wakeful.congr (hw : Wakeful s log toVisit) (hproc : s'.processing = s.processing)
    (hpend : s'.pending = s.pending) (hindex : s'.pendingByDependency = s.pendingByDependency) :
    Wakeful s' log toVisit := by
  have hdep : ∀ d, s'.dependentsOf d = s.dependentsOf d := fun d => by
    rw [State.dependentsOf, hindex, State.dependentsOf]
  refine ⟨fun hp => hw.stored (hpend ▸ hp), fun hp => ?_, fun {d id} hi => ?_⟩
  · rw [hdep]
    exact hw.indexed (hpend ▸ hp)
  · rw [State.Tracks, hproc, hpend]
    exact hw.awaited (hdep d ▸ hi)

/-- Outputs that remove no id. -/
theorem Wakeful.append (hw : Wakeful s log toVisit) (out : List (Output α))
    (hout : ∀ id, lastRemoval out id = none) :
    Wakeful s (log ++ out) toVisit :=
  ⟨hw.stored, hw.indexed, fun hi => (hw.awaited hi).imp_right (·.append (.inl (hout _)))⟩

/-- Entries leave `processing` by a failure or an expiry. -/
theorem Wakeful.forget (hw : Wakeful s log toVisit) {processing : OrderedMap α Nat}
    (hproc : ∀ d ∈ s.processing, d ∈ processing ∨ LeftFailing out d)
    (hout : ∀ d, lastRemoval out d = none ∨ LeftFailing out d) :
    Wakeful { s with processing := processing } (log ++ out) toVisit := by
  refine ⟨hw.stored, hw.indexed, fun {d id} hi => ?_⟩
  rcases hw.awaited hi with (ht | ht) | hl
  · rcases hproc d ht with hm | hf
    · exact .inl (.inl hm)
    · exact .inr (LeftFailing.append' hf)
  · exact .inl (.inr ht)
  · exact .inr (hl.append (hout d))

theorem Wakeful.fail (hw : Wakeful s log toVisit) (messageId : Option α) :
    Wakeful (s.removeProcessing messageId .failure).1
      (log ++ (s.removeProcessing messageId .failure).2) toVisit := by
  cases messageId with
  | none => exact hw.append _ fun _ => rfl
  | some id =>
    refine hw.forget (fun d hd => ?_) fun d => ?_
    · by_cases hid : id = d
      · subst hid
        exact .inr (.inl (by rw [lastRemoval_removeProcessing, if_pos ⟨hd, rfl⟩]))
      · exact .inl (OrderedMap.mem_erase.mpr ⟨fun h => hid h.symm, hd⟩)
    · simp only [LeftFailing, lastRemoval_removeProcessing]
      split
      · exact .inr (.inl rfl)
      · exact .inl rfl

/-- A success: the list of dependents goes to the loop. -/
theorem Wakeful.succeed (hw : Wakeful s log toVisit) (messageId : Option α) :
    let removal := s.removeProcessing messageId .success
    let dependents := removal.1.takeDependents messageId
    Wakeful { s with
        processing := removal.1.processing
        pendingByDependency := dependents.1.pendingByDependency }
      (log ++ removal.2) (dependents.2 ++ toVisit) := by
  cases messageId with
  | none => exact hw.append _ fun _ => rfl
  | some m =>
    intro removal dependents
    obtain ⟨htaken, hleft⟩ := takeDependents_some removal.1 m
    have hleft : ∀ d, State.dependentsOf { s with
        processing := removal.1.processing
        pendingByDependency := dependents.1.pendingByDependency } d =
        if d = m then [] else s.dependentsOf d := hleft
    refine ⟨hw.stored, fun {id data} hp => ?_, fun {d id} hi => ?_⟩
    · rw [hleft]
      rcases hw.indexed hp with hi | hv
      · split
        · rename_i hd
          rw [hd] at hi
          exact .inr (List.mem_append_left _ (htaken ▸ hi))
        · exact .inl hi
      · exact .inr (List.mem_append_right _ hv)
    · rw [hleft] at hi
      split at hi
      · cases hi
      · rename_i hd
        have hnone : lastRemoval removal.2 d = none := by
          rw [lastRemoval_removeProcessing]
          exact if_neg fun h => hd h.2.symm
        rcases hw.awaited hi with (ht | ht) | hl
        · exact .inl (.inl (OrderedMap.mem_erase.mpr ⟨hd, ht⟩))
        · exact .inl (.inr ht)
        · exact .inr (hl.append (.inl hnone))

theorem Wakeful.expire (hw : Wakeful s log toVisit) {id : α} {data : Parked α} (hout : ∀ d, lastRemoval out d =
      if id = d then some .expired else none) :
    Wakeful (s.removePending id data.dependsOn) (log ++ out) toVisit := by
  have hframe := removePending_frame s id data.dependsOn
  have hpend : (s.removePending id data.dependsOn).pending = s.pending.erase id :=
    (congrArg State.pending hframe :)
  have hproc : (s.removePending id data.dependsOn).processing = s.processing :=
    (congrArg State.processing hframe :)
  have hold : ∀ {id' data'}, (s.removePending id data.dependsOn).pending.get? id' = some data' →
      id' ≠ id ∧ s.pending.get? id' = some data' := by
    intro id' data' hp'
    rw [hpend, OrderedMap.get?_erase] at hp'
    split at hp'
    · cases hp'
    · exact ⟨‹_›, hp'⟩
  refine ⟨fun hp' => hw.stored (hold hp').2, fun {id' data'} hp' => ?_, fun {d id'} hi => ?_⟩
  · obtain ⟨hne, hp'⟩ := hold hp'
    refine (hw.indexed hp').imp_left fun hi => ?_
    rw [dependentsOf_removePending]
    split
    · rename_i hd
      rw [hd] at hi
      exact List.mem_filter.mpr ⟨hi, decide_eq_true hne⟩
    · exact hi
  · have hi : id' ∈ s.dependentsOf d := by
      rw [dependentsOf_removePending] at hi
      split at hi
      · subst_vars
        exact (List.mem_filter.mp hi).1
      · exact hi
    by_cases hd : id = d
    · refine .inr (LeftFailing.append' (.inr ?_))
      rw [hout, if_pos hd]
    · rcases hw.awaited hi with (ht | ht) | hl
      · exact .inl (.inl (hproc ▸ ht))
      · exact .inl (.inr (hpend ▸ OrderedMap.mem_erase.mpr ⟨fun h => hd h.symm, ht⟩))
      · exact .inr (hl.append (.inl (by rw [hout, if_neg hd])))

/-- A loop visits an id that is gone. -/
theorem Wakeful.skip {id : α} {toVisit' : List α} (hw : Wakeful s log toVisit')
    (hv : ∀ id' ∈ toVisit', id' = id ∨ id' ∈ toVisit) (hp : s.pending.get? id = none) :
    Wakeful s log toVisit := by
  refine ⟨hw.stored, fun {id' data} hp' => (hw.indexed hp').imp_right fun hm => ?_, hw.awaited⟩
  refine (hv id' hm).resolve_left ?_
  rintro rfl
  rw [hp] at hp'
  cases hp'

/-- A loop visits an id that is still parked and hands its delivery to `handle`. -/
theorem Wakeful.release {id : α} {data : Parked α}
    {r : State α × List (Output α) × Progress α}
    (hw : Wakeful s log (id :: toVisit)) (hp : s.pending.get? id = some data)
    (H : Handles h { s with pending := s.pending.erase id } data.message r)
    (hout : ∀ d, d ≠ id → lastRemoval out d = none) : Wakeful r.1 (log ++ out) toVisit := by
  have hold : ∀ {id' data'}, (s.pending.erase id).get? id' = some data' →
      id' ≠ id ∧ s.pending.get? id' = some data' := by
    intro id' data' hp'
    rw [OrderedMap.get?_erase] at hp'
    split at hp'
    · cases hp'
    · exact ⟨‹_›, hp'⟩
  refine H.wakeful (fun hp' => hw.stored (hold hp').2) (fun {id' data'} hp' => ?_)
    fun {d id'} hi => ?_
  · obtain ⟨hne, hp'⟩ := hold hp'
    exact (hw.indexed hp').imp_right fun hv => (List.mem_cons.mp hv).resolve_left hne
  · by_cases hd : d = id
    · subst hd
      refine .inr (.inr ⟨(hw.stored hp).1, fun hm => ?_⟩)
      exact (OrderedMap.mem_erase.mp hm).1 rfl
    · rcases hw.awaited hi with (ht | ht) | hl
      · exact .inl (.inl ht)
      · exact .inl (.inr (OrderedMap.mem_erase.mpr ⟨hd, ht⟩))
      · exact .inr (.inl (hl.append (.inl (hout d hd))))

/-! ## Runs -/

/-- The steps in which settling a callback throws no further exception, and nothing is disposed. -/
def Settles (c : Config) (s : State α) (input : Hooks α × Event α) : Prop :=
  match input.2 with
  | .callbackResolved root => ∀ message startTime rest,
      s.calls.get? root = some (⟨message, startTime, .callback⟩ :: rest) →
        input.1.onSuccess message = .ok ()
  | .callbackRejected root error => ∀ message startTime rest,
      s.calls.get? root = some (⟨message, startTime, .callback⟩ :: rest) →
        c.Loggable error ∧ (∃ requeue, input.1.shouldRequeue message error = .ok requeue) ∧
          input.1.onFailure message error = .ok ()
  | .dispose => False
  | _ => True

omit [DecidableEq α] in
theorem Orderly.settles {input : Hooks α × Event α} (hok : Orderly c input) (s : State α) :
    Settles c s input := by
  obtain ⟨h, event⟩ := input
  obtain ⟨⟨hh, hlive⟩, hlog⟩ := hok
  cases event with
  | callbackResolved root => exact fun m _ _ _ => hh.onSuccess m
  | callbackRejected root error =>
    exact fun m _ _ _ => ⟨hlog, hh.shouldRequeue m error, hh.onFailure m error⟩
  | dispose => exact hlive rfl
  | _ => trivial

omit [DecidableEq α] in
theorem visitsOf_resumed (calls : OrderedMap Nat (List (Frame α))) (root : Nat)
    (stack : List (Frame α)) : (visitsOf (resumed calls root stack)).Perm
      (stack.flatMap Frame.remaining ++ visitsOf (calls.erase root)) := by
  cases stack with
  | nil => exact .refl _
  | cons f rest => exact visitsOf_set calls root (f :: rest)

section Roots

variable {calls : OrderedMap Nat (List (Frame α))} {handled : List Nat}
  (hroots : ∀ {root stack}, calls.get? root = some stack → root ∈ handled)
include hroots

omit [DecidableEq α] in
theorem roots_resumed {old : List (Frame α)} (hcall : calls.get? root = some old)
    (new : List (Frame α)) {r : Nat} {stack : List (Frame α)}
    (hr : (resumed calls root new).get? r = some stack) : r ∈ handled := by
  rw [get?_resumed] at hr
  by_cases hroot : r = root
  · subst hroot
    exact hroots hcall
  · rw [if_neg hroot] at hr
    exact hroots hr

omit [DecidableEq α] in
theorem roots_started {tag : Nat} {started : List (Frame α)} {r : Nat} {stack : List (Frame α)}
    (hr : (calls.set tag started).get? r = some stack) : r ∈ tag :: handled := by
  rw [OrderedMap.get?_set] at hr
  split at hr
  · subst_vars
    exact List.mem_cons_self
  · exact List.mem_cons_of_mem _ (hroots hr)

omit [DecidableEq α] in
/-- The call of a delivery that was not handled before is a new one. -/
theorem visitsOf_started {tag : Nat} (hfresh : tag ∉ handled) (child : Frame α) :
    (visitsOf (calls.set tag [child])).Perm (child.remaining ++ visitsOf calls) := by
  have hnone : tag ∉ calls := fun hm => by
    obtain ⟨stack, hr⟩ := OrderedMap.mem_iff.mp hm
    exact hfresh (hroots hr)
  have hset := visitsOf_set calls tag [child]
  rwa [OrderedMap.erase_of_not_mem hnone, List.flatMap_singleton] at hset

end Roots

/-- What such a step does, with the state it leaves. -/
inductive Calm [ToString α] (c : Config) (h : Hooks α) (s : State α) :
    Event α → State α × List (Output α) → Prop
  | handled {message s₁ out progress result} (hfresh : message.tag ∉ s.handled)
      (H : Handles h { s with handled := message.tag :: s.handled } message (s₁, out, progress)) :
      Calm c h s (.handle message) (s₁, out ++ [.handled message.tag result])
  | started {message s₁ out child} (hfresh : message.tag ∉ s.handled)
      (H : Handles h { s with handled := message.tag :: s.handled } message
        (s₁, out, .running child)) :
      Calm c h s (.handle message) ({ s₁ with calls := s.calls.set message.tag [child] }, out)
  | succeeds {root message startTime rest}
      (hcall : s.calls.get? root = some (⟨message, startTime, .callback⟩ :: rest)) :
      Calm c h s (.callbackResolved root)
        (let removal := s.removeProcessing message.messageId .success
        let dependents := removal.1.takeDependents message.messageId
        ({ s with
            processing := removal.1.processing
            pendingByDependency := dependents.1.pendingByDependency
            calls := s.calls.set root (⟨message, startTime, .dependents dependents.2⟩ :: rest) },
          removal.2 ++ [.onSuccess message (.ran (s.now - startTime))]))
  | fails {root message startTime rest error requeue}
      (hcall : s.calls.get? root = some (⟨message, startTime, .callback⟩ :: rest)) :
      Calm c h s (.callbackRejected root error)
        (let removal := s.removeProcessing message.messageId .failure
        ({ s with processing := removal.1.processing, calls := resumed s.calls root rest },
          removal.2 ++ ([.onFailure message error requeue (.ran (s.now - startTime))] ++
            if rest.isEmpty then [.handled root (.ok ())] else [])))
  | loopEnds {root message startTime rest}
      (hcall : s.calls.get? root = some (⟨message, startTime, .dependents []⟩ :: rest)) :
      Calm c h s (.processDependents root) ({ s with calls := resumed s.calls root rest },
        if rest.isEmpty then [.handled root (.ok ())] else [])
  | skips {root message startTime pendingId remaining rest}
      (hcall : s.calls.get? root =
        some (⟨message, startTime, .dependents (pendingId :: remaining)⟩ :: rest))
      (hp : s.pending.get? pendingId = none) :
      Calm c h s (.processDependents root)
        ({ s with calls := s.calls.set root (⟨message, startTime, .dependents remaining⟩ :: rest) },
          [.visited root rest.length pendingId])
  | releases {root message startTime pendingId remaining rest data s₁ out progress}
      (hcall : s.calls.get? root =
        some (⟨message, startTime, .dependents (pendingId :: remaining)⟩ :: rest))
      (hp : s.pending.get? pendingId = some data)
      (H : Handles h { s with pending := s.pending.erase pendingId } data.message
        (s₁, out, progress)) :
      Calm c h s (.processDependents root)
        ({ s₁ with
            calls := s.calls.set root
              (progress.onto (⟨message, startTime, .dependents remaining⟩ :: rest)) },
          .visited root rest.length pendingId :: .removed pendingId .released :: out)
  | cleanup : Calm c h s .cleanup (cleanup c h s)
  | tick {elapsed} : Calm c h s (.tick elapsed) ({ s with now := s.now + elapsed }, [])

/-- The delivery a loop releases is not taken for a duplicate: the id it was parked under has left
`pending`. -/
theorem Handles.not_rejected_of_stored {id : α} {r : State α × List (Output α) × Progress α}
    (H : Handles h { s with pending := s.pending.erase id } message r)
    (hid : message.messageId = some id) (error : Value) : r.2.2 ≠ .rejected error := by
  cases H with
  | duplicate hid' hmem =>
    rw [hid] at hid'
    cases hid'
    exact absurd rfl (OrderedMap.mem_erase.mp hmem).1
  | parks hid hd hmem => exact nofun
  | runs hfree => exact nofun

theorem calm_cases [ToString α] {event : Event α} {r : State α × List (Output α)}
    (hstored : ∀ {id data}, s.pending.get? id = some data → data.message.messageId = some id)
    (hok : Settles c s (h, event)) (hs : Steps c h s event r) : Calm c h s event r := by
  cases hs with
  | @handle message hfresh =>
    have H := handle_cases h { s with handled := message.tag :: s.handled } message
    have hframe := H.frame
    simp only [deliver]
    generalize SequentialProcessor.handle h { s with handled := message.tag :: s.handled } message
      = r at *
    obtain ⟨s₁, out, progress⟩ := r
    have hcalls : s₁.calls = s.calls := (congrArg State.calls hframe :)
    cases progress with
    | resolved => exact .handled hfresh H
    | rejected e => exact .handled hfresh H
    | running child =>
      simp only [hcalls]
      exact .started hfresh H
  | @callbackResolved root message startTime rest hcall =>
    rw [callbackResolved_ok c root (hok _ _ _ hcall)]
    exact .succeeds hcall
  | @callbackRejected root message startTime rest error hcall =>
    obtain ⟨hlog, ⟨requeue, hrequeue⟩, hfail⟩ := hok _ _ _ hcall
    simp only [settle, settle_ok_eq, processCatch_returns ⟨message, startTime, .callback⟩
      hrequeue hlog hfail, List.append_assoc]
    exact .fails hcall
  | @loopEnds root message startTime rest hcall =>
    rw [settle_ok_eq]
    exact .loopEnds hcall
  | @loopTurns root message startTime pendingId remaining rest hcall =>
    rw [processDependent_returns fun data error hp =>
      (handle_cases ..).not_rejected_of_stored (hstored hp) error]
    cases hp : s.pending.get? pendingId with
    | none => exact .skips hcall hp
    | some data =>
      have H := handle_cases h { s with pending := s.pending.erase pendingId } data.message
      have hframe := H.frame
      dsimp only
      generalize SequentialProcessor.handle h { s with pending := s.pending.erase pendingId }
        data.message = r at *
      obtain ⟨s₁, out, progress⟩ := r
      have hcalls : s₁.calls = s.calls := (congrArg State.calls hframe :)
      simp only [hcalls]
      exact .releases hcall hp H
  | cleanup => exact .cleanup
  | dispose => exact hok.elim
  | tick => exact .tick

/-- The invariant of a run. -/
structure Woken (w : State α × List (Output α)) : Prop where
  roots : ∀ {root stack}, w.1.calls.get? root = some stack → root ∈ w.1.handled
  wakeful : Wakeful w.1 w.2 w.1.toVisit

/-- The obligation of a step that puts the stack `new` in place of the one of `root`. -/
private theorem Woken.move {old : List (Frame α)} (hw : Woken (s, log))
    (hcall : s.calls.get? root = some old) (new : List (Frame α)) (hcalls : s'.calls = resumed s.calls root new)
    (hhandled : s'.handled = s.handled)
    (hwake : Wakeful s' (log ++ out)
      (new.flatMap Frame.remaining ++ visitsOf (s.calls.erase root))) : Woken (s', log ++ out) := by
  refine ⟨fun {r stack} hr => ?_, hwake.mono fun id hv => ?_⟩
  · exact hhandled ▸ roots_resumed hw.roots hcall new (hcalls ▸ hr)
  · rw [State.toVisit, hcalls]
    exact (visitsOf_resumed s.calls root new).mem_iff.mpr hv

theorem Handles.lastRemoval_eq {r : State α × List (Output α) × Progress α}
    (H : Handles h s message r) (d : α) : lastRemoval r.2.1 d = none := by
  cases H <;> rfl

/-- A call that `handle` suspends has nothing to visit yet. -/
theorem Handles.onto_remaining {r : State α × List (Output α) × Progress α}
    (H : Handles h s message r) (stack : List (Frame α)) :
    (r.2.2.onto stack).flatMap Frame.remaining = stack.flatMap Frame.remaining := by
  cases H with
  | duplicate hid hp => cases hs : h.onSuccess message <;> rfl
  | parks hid hd hp => rfl
  | runs hfree => rfl

/-- The first loop of the sweep. -/
theorem Wakeful.sweepProcessing (hw : Wakeful s log toVisit) :
    Wakeful (sweepProcessing c s).1 (log ++ (sweepProcessing c s).2) toVisit := by
  refine hw.forget (fun d hd => ?_) fun d => ?_
  · obtain ⟨t, ht⟩ := OrderedMap.mem_iff.mp hd
    by_cases hstale : c.staleTimeout < s.now - t
    · refine .inr (.inr ?_)
      rw [SequentialProcessor.sweepProcessing, lastRemoval_map, if_pos]
      exact OrderedMap.mem_of_get? (OrderedMap.get?_filter.mpr ⟨ht, decide_eq_true hstale⟩)
    · refine .inl (OrderedMap.mem_of_get? (OrderedMap.get?_filter.mpr ⟨ht, ?_⟩))
      simp [hstale]
  · rw [LeftFailing, SequentialProcessor.sweepProcessing, lastRemoval_map]
    split
    · exact .inr (.inr rfl)
    · exact .inl rfl

variable [ToString α]

/-- The second loop of the sweep, whatever the hooks do. -/
theorem Wakeful.sweepPending (entries : List (α × Parked α)) (hw : Wakeful s log toVisit) :
    Wakeful (sweepPending c h entries s).1 (log ++ (sweepPending c h entries s).2) toVisit := by
  induction entries generalizing s log with
  | nil => exact hw.append _ fun _ => rfl
  | cons e entries ih =>
    obtain ⟨messageId, data⟩ := e
    simp only [SequentialProcessor.sweepPending]
    split
    · have hexpire : ∀ out, (∀ d, lastRemoval out d = none) →
          Wakeful (s.removePending messageId data.dependsOn)
            (log ++ (.removed messageId .expired :: out)) toVisit := by
        intro out hout
        refine hw.expire fun d => ?_
        rw [← List.singleton_append, lastRemoval_append, hout, lastRemoval_removed]
        rfl
      split
      · exact hexpire _ fun _ => rfl
      · rename_i requeue _
        split
        · exact hexpire _ fun _ => rfl
        · have hrest := ih (hexpire [.onFailure data.message
            data.expiry requeue .expired]
            fun _ => rfl)
          rw [List.append_assoc] at hrest
          exact hrest
    · exact ih hw

theorem Woken.steps {event : Event α} {r : State α × List (Output α)}
    (hw : Woken (s, log)) (hs : Calm c h s event r) : Woken (r.1, log ++ r.2) := by
  have hsplit : ∀ {root stack}, s.calls.get? root = some stack → Wakeful s log
      (stack.flatMap Frame.remaining ++ visitsOf (s.calls.erase root)) := fun hcall =>
    hw.wakeful.mono fun id hv => (visitsOf_get? hcall).mem_iff.mp hv
  have hnew : ∀ {message : Message α} {r}, Handles h { s with handled := message.tag :: s.handled }
      message r → Wakeful r.1 (log ++ r.2.1) s.toVisit := fun H =>
    (H.wakeful hw.wakeful.stored hw.wakeful.indexed
      fun hi => (hw.wakeful.awaited hi).imp_right .inl).append _ H.lastRemoval_eq
  cases hs with
  | @handled message s₁ out progress result hfresh H =>
    have hcalls : s₁.calls = s.calls := (congrArg State.calls H.frame :)
    have hhandled : s₁.handled = message.tag :: s.handled := (congrArg State.handled H.frame :)
    have hdone := (hnew H).append [.handled message.tag result] fun _ => rfl
    rw [List.append_assoc] at hdone
    refine ⟨fun hr => hhandled ▸ List.mem_cons_of_mem _ (hw.roots (hcalls ▸ hr)), ?_⟩
    have hvisit : s₁.toVisit = s.toVisit := congrArg visitsOf hcalls
    exact hvisit ▸ hdone
  | @started message s₁ out child hfresh H =>
    have hhandled : s₁.handled = message.tag :: s.handled := (congrArg State.handled H.frame :)
    refine ⟨fun hr => hhandled ▸ roots_started hw.roots hr,
      ((hnew H).mono fun id hv => ?_).congr rfl rfl rfl⟩
    exact (visitsOf_started hw.roots hfresh child).mem_iff.mpr (List.mem_append_right _ hv)
  | @succeeds root message startTime rest hcall =>
    refine hw.move hcall (_ :: rest) rfl rfl ?_
    have hsucceed := (hsplit hcall).succeed message.messageId
    have hdone := hsucceed.append [.onSuccess message (.ran (s.now - startTime))]
      fun _ => rfl
    rw [List.append_assoc] at hdone
    refine (hdone.mono fun id hv => ?_).congr rfl rfl rfl
    simpa [Frame.remaining, or_assoc] using hv
  | @fails root message startTime rest error requeue hcall =>
    refine hw.move hcall rest rfl rfl ?_
    have hfailed := (hsplit hcall).fail message.messageId
    rw [removeProcessing_frame] at hfailed
    have hdone := hfailed.append ([.onFailure message error requeue
      (.ran (s.now - startTime))] ++ if rest.isEmpty then [.handled root (.ok ())] else [])
      fun _ => by split <;> rfl
    rw [List.append_assoc] at hdone
    exact hdone.congr rfl rfl rfl
  | @loopEnds root message startTime rest hcall =>
    refine hw.move hcall rest rfl rfl ?_
    refine ((hsplit hcall).append _ fun d => ?_).congr rfl rfl rfl
    dsimp only
    split <;> rfl
  | @skips root message startTime pendingId remaining rest hcall hp =>
    refine hw.move hcall (_ :: rest) rfl rfl ?_
    have hgone : Wakeful s log (remaining ++ (rest.flatMap Frame.remaining ++
        visitsOf (s.calls.erase root))) :=
      (hsplit hcall).skip (fun id hv => by simpa [Frame.remaining] using hv) hp
    refine ((hgone.append _ fun _ => rfl).mono fun id hv => ?_).congr rfl rfl rfl
    simpa [Frame.remaining] using hv
  | @releases root message startTime pendingId remaining rest data s₁ out progress hcall hp H =>
    have hhandled : s₁.handled = s.handled := (congrArg State.handled H.frame :)
    have hwake : Wakeful s log (pendingId :: (remaining ++
        (rest.flatMap Frame.remaining ++ visitsOf (s.calls.erase root)))) :=
      (hsplit hcall).mono fun id hv => by simpa [Frame.remaining] using hv
    refine hw.move hcall (progress.onto (⟨message, startTime, .dependents remaining⟩ :: rest))
      ?_ hhandled (((hwake.release hp H fun d hd => ?_).mono fun id hv => ?_).congr rfl rfl rfl)
    · cases progress <;> rfl
    · have hfirst := lastRemoval_append [.removed pendingId .released] out d
      rw [lastRemoval_removed, if_neg fun h => hd h.symm,
        show lastRemoval out d = none from H.lastRemoval_eq d] at hfirst
      exact hfirst
    · have hstack : (progress.onto (⟨message, startTime, .dependents remaining⟩ :: rest)).flatMap
          Frame.remaining = remaining ++ rest.flatMap Frame.remaining := H.onto_remaining _
      rwa [hstack, List.append_assoc]
  | cleanup =>
    have hframe := sweepPending_frame c h s.pending.entries (sweepProcessing c s).1
    have hcalls : (cleanup c h s).1.calls = s.calls := (congrArg State.calls hframe :)
    have hhandled : (cleanup c h s).1.handled = s.handled := (congrArg State.handled hframe :)
    refine ⟨fun hr => hhandled ▸ hw.roots (hcalls ▸ hr), ?_⟩
    have hsweep := (hw.wakeful.sweepProcessing (c := c)).sweepPending (c := c) (h := h)
      s.pending.entries
    rw [List.append_assoc] at hsweep
    have hvisit : (cleanup c h s).1.toVisit = s.toVisit := congrArg visitsOf hcalls
    exact hvisit ▸ hsweep
  | tick => exact ⟨hw.roots, (hw.wakeful.append _ fun _ => rfl).congr rfl rfl rfl⟩

omit [ToString α] in
theorem woken_start : Woken ((start, []) : State α × List (Output α)) where
  roots hr := by cases hr
  wakeful :=
    { stored := fun hp => by cases hp
      indexed := fun hp => by cases hp
      awaited := fun hi => by cases hi }

theorem Woken.of_reach {w : State α × List (Output α)}
    (hr : Reach (logged (step c)) (fun w => Settles c w.1) (start, []) w) : Woken w := by
  refine hr.invariant woken_start fun {w w' e} hw hok hlogged => ?_
  obtain ⟨s', out, hs, rfl⟩ := logged_eq_some hlogged
  exact hw.steps (calm_cases (fun hp => (hw.wakeful.stored hp).1) hok (step_cases hs))

end SequentialProcessor
end RabbitMQ
