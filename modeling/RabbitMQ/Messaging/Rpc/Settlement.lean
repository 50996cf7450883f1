import RabbitMQ.Messaging.Rpc

/-! A registered request settles once: until then it is pending with its timer armed, or its reply
is being decoded. -/

namespace RabbitMQ
namespace Rpc

open Transition

variable {s s' : State}

/-- Requests settle once, and do not hang. -/
structure SettledOnce (s : State) : Prop where
  once : (s.settled.map (·.request)).Nodup
  /-- one that has not settled has its timer armed, or its reply is being decoded -/
  awaited : ∀ correlationId request, s.issued.get? correlationId = some request →
    request ∉ s.settled.map (·.request) →
      (∃ timer, s.pendingRequests.get? correlationId = some ⟨request, timer⟩ ∧
        s.timers.get? timer = some ⟨correlationId, request⟩) ∨
      ∃ rpcError, s.decoding.get? correlationId = some ⟨request, rpcError⟩
  /-- one that has settled is gone, and its timer cleared -/
  gone : ∀ x ∈ s.settled, ∃ correlationId, s.issued.get? correlationId = some x.request ∧
    correlationId ∉ s.pendingRequests ∧ correlationId ∉ s.decoding ∧
      ∀ handle timer, s.timers.get? handle = some timer → timer.correlationId ≠ correlationId
  /-- a reply or a return settles only the request that has its correlation id -/
  own : ∀ x ∈ s.settled, ∀ correlationId, x.cause = some correlationId →
    s.issued.get? correlationId = some x.request

structure Kept (s : State) : Prop where
  entry : ∀ k p, s.pendingRequests.get? k = some p → s.issued.get? k = some p.request ∧
    s.timers.get? p.timer = some ⟨k, p.request⟩
  timer : ∀ h t, s.timers.get? h = some t →
    s.pendingRequests.get? t.correlationId = some ⟨t.request, h⟩
  armed : ∀ h t, s.timers.get? h = some t → h < s.nextTimer
  decoding : ∀ k d, s.decoding.get? k = some d → s.issued.get? k = some d.request ∧
    k ∉ s.pendingRequests
  covered : ∀ k r, s.issued.get? k = some r →
    (r ∉ s.settled.map (·.request) ↔ k ∈ s.pendingRequests ∨ k ∈ s.decoding)
  owner : ∀ k k' r, s.issued.get? k = some r → s.issued.get? k' = some r → k = k'
  stage : ∀ k r, s.issued.get? k = some r → s.requests.get? r = some .registered
  once : (s.settled.map (·.request)).Nodup
  registered : ∀ x ∈ s.settled, ∃ k, s.issued.get? k = some x.request
  own : ∀ x ∈ s.settled, ∀ k, x.cause = some k → s.issued.get? k = some x.request

theorem kept_start : Kept start :=
  ⟨nofun, nofun, nofun, nofun, nofun, nofun, nofun, .nil, nofun, nofun⟩

theorem Kept.settledOnce (h : Kept s) : SettledOnce s := by
  refine ⟨h.once, fun k r hk hopen => ?_, fun x hx => ?_, h.own⟩
  · rcases (h.covered k r hk).mp hopen with hmem | hmem
    · obtain ⟨⟨r', timer⟩, hp⟩ := OrderedMap.mem_iff.mp hmem
      obtain ⟨hissued, htimer⟩ := h.entry k _ hp
      cases hk.symm.trans hissued
      exact .inl ⟨timer, hp, htimer⟩
    · obtain ⟨⟨r', rpcError⟩, hd⟩ := OrderedMap.mem_iff.mp hmem
      cases hk.symm.trans (h.decoding k _ hd).1
      exact .inr ⟨rpcError, hd⟩
  · obtain ⟨k, hk⟩ := h.registered x hx
    have hnot : ¬ (k ∈ s.pendingRequests ∨ k ∈ s.decoding) := fun hmem =>
      (h.covered k _ hk).mpr hmem (List.mem_map_of_mem hx)
    refine ⟨k, hk, fun hmem => hnot (.inl hmem), fun hmem => hnot (.inr hmem), ?_⟩
    rintro handle timer ht rfl
    exact hnot (.inl (OrderedMap.mem_of_get? (h.timer handle timer ht)))

/-- A step that leaves the registered requests alone. -/
theorem Kept.same (h : Kept s) (hpending : s'.pendingRequests = s.pendingRequests)
    (htimers : s'.timers = s.timers) (hnext : s'.nextTimer = s.nextTimer)
    (hissued : s'.issued = s.issued) (hdecoding : s'.decoding = s.decoding)
    (hsettled : s'.settled = s.settled)
    (hstage : ∀ r, s.requests.get? r = some .registered → s'.requests.get? r = some .registered) :
    Kept s' := by
  refine ⟨?_, ?_, ?_, ?_, ?_, hissued ▸ h.owner, fun k r hk => ?_, hsettled ▸ h.once, ?_, ?_⟩
  · rw [hpending, htimers, hissued]
    exact h.entry
  · rw [hpending, htimers]
    exact h.timer
  · rw [htimers, hnext]
    exact h.armed
  · rw [hdecoding, hissued, hpending]
    exact h.decoding
  · rw [hdecoding, hissued, hpending, hsettled]
    exact h.covered
  · exact hstage r (h.stage k r (hissued ▸ hk))
  · rw [hissued, hsettled]
    exact h.registered
  · rw [hissued, hsettled]
    exact h.own

theorem Kept.setStage (h : Kept s) {request : Nat}
    (hstage : s.requests.get? request ≠ some .registered) (stage : Stage) :
    Kept (s.setStage request stage) := by
  refine h.same rfl rfl rfl rfl rfl rfl fun r hr => ?_
  refine (OrderedMap.get?_set _ _ _ _).trans ((if_neg ?_).trans hr)
  rintro rfl
  exact hstage hr

/-- The request of one correlation id settles. -/
theorem Kept.settles (h : Kept s) {k r : Nat} {cause : Option Nat} {outcome : Outcome}
    (hk : s.issued.get? k = some r) (hopen : r ∉ s.settled.map (·.request))
    (hpending : ∀ j, s'.pendingRequests.get? j = if j = k then none else s.pendingRequests.get? j)
    (hdecoding : ∀ j, s'.decoding.get? j = if j = k then none else s.decoding.get? j)
    (htimers : ∀ j t, s'.timers.get? j = some t ↔ s.timers.get? j = some t ∧ t.correlationId ≠ k)
    (hnext : s'.nextTimer = s.nextTimer) (hissued : s'.issued = s.issued)
    (hrequests : s'.requests = s.requests)
    (hsettled : s'.settled = s.settled ++ [⟨r, cause, outcome⟩])
    (hcause : ∀ j, cause = some j → j = k) : Kept s' := by
  have hmemp : ∀ j, j ∈ s'.pendingRequests ↔ j ≠ k ∧ j ∈ s.pendingRequests := fun j => by
    rw [OrderedMap.mem_iff, OrderedMap.mem_iff, hpending]
    split
    · next heq => simp [heq]
    · next hne => simp [hne]
  have hmemd : ∀ j, j ∈ s'.decoding ↔ j ≠ k ∧ j ∈ s.decoding := fun j => by
    rw [OrderedMap.mem_iff, OrderedMap.mem_iff, hdecoding]
    split
    · next heq => simp [heq]
    · next hne => simp [hne]
  have hlist : s'.settled.map (·.request) = s.settled.map (·.request) ++ [r] := by simp [hsettled]
  refine ⟨fun j p hp => ?_, fun j t ht => ?_, fun j t ht => ?_, fun j d hd => ?_,
    fun j r' hj => ?_, hissued ▸ h.owner, fun j r' hj => ?_, ?_, fun x hx => ?_, fun x hx j hj => ?_⟩
  · rw [hpending] at hp
    split at hp
    · cases hp
    · next hne =>
      obtain ⟨hi, ht⟩ := h.entry j p hp
      exact ⟨hissued ▸ hi, (htimers _ _).mpr ⟨ht, hne⟩⟩
  · obtain ⟨ht, hne⟩ := (htimers j t).mp ht
    rw [hpending, if_neg hne]
    exact h.timer j t ht
  · rw [hnext]
    exact h.armed j t ((htimers j t).mp ht).1
  · rw [hdecoding] at hd
    split at hd
    · cases hd
    · obtain ⟨hi, hnot⟩ := h.decoding j d hd
      exact ⟨hissued ▸ hi, fun hmem => hnot ((hmemp j).mp hmem).2⟩
  · rw [hissued] at hj
    rw [hlist, hmemp, hmemd, ← and_or_left, ← h.covered j r' hj, List.mem_append,
      List.mem_singleton, not_or, and_comm]
    refine and_congr_left fun _ => not_congr ⟨?_, ?_⟩
    · rintro rfl
      exact h.owner j k r' hj hk
    · rintro rfl
      exact Option.some_inj.mp (hj.symm.trans hk)
  · rw [hrequests]
    exact h.stage j r' (hissued ▸ hj)
  · rw [hlist]
    refine List.nodup_append.mpr ⟨h.once, List.nodup_singleton _, fun a ha b hb => ?_⟩
    rw [List.mem_singleton.mp hb]
    rintro rfl
    exact hopen ha
  · rw [hissued]
    rw [hsettled] at hx
    rcases List.mem_append.mp hx with hx | hx
    · exact h.registered x hx
    · rw [List.mem_singleton.mp hx]
      exact ⟨k, hk⟩
  · rw [hissued]
    rw [hsettled] at hx
    rcases List.mem_append.mp hx with hx | hx
    · exact h.own x hx j hj
    · rw [List.mem_singleton.mp hx] at hj ⊢
      rw [hcause j hj]
      exact hk

/-- What a timer's correlation id says of its handle. -/
theorem Kept.timers_erase (h : Kept s) {k r handle : Nat}
    (hp : s.pendingRequests.get? k = some ⟨r, handle⟩) (j : Nat) (t : Timer) :
    (s.timers.erase handle).get? j = some t ↔ s.timers.get? j = some t ∧ t.correlationId ≠ k := by
  rw [OrderedMap.get?_erase]
  split
  · next heq =>
    subst heq
    refine iff_of_false (by simp) ?_
    rintro ⟨ht, hne⟩
    refine hne ?_
    cases (h.entry k _ hp).2.symm.trans ht
    rfl
  · next hne =>
    refine ⟨fun ht => ⟨ht, ?_⟩, And.left⟩
    rintro rfl
    cases hp.symm.trans (h.timer j t ht)
    exact hne rfl

theorem Kept.open_of_pending (h : Kept s) {k : Nat} {p : Pending}
    (hp : s.pendingRequests.get? k = some p) : s.issued.get? k = some p.request ∧
      p.request ∉ s.settled.map (·.request) ∧ s.decoding.get? k = none := by
  have hk := (h.entry k p hp).1
  refine ⟨hk, (h.covered k _ hk).mpr (.inl (OrderedMap.mem_of_get? hp)), ?_⟩
  cases hd : s.decoding.get? k with
  | none => rfl
  | some d => exact absurd (OrderedMap.mem_of_get? hp) (h.decoding k d hd).2

theorem get?_of_absent {ν : Type} {m : OrderedMap Nat ν} {k : Nat} (h : m.get? k = none) (j : Nat) :
    m.get? j = if j = k then none else m.get? j := by
  split
  · next heq => rw [heq, h]
  · rfl

theorem Kept.settlePending (h : Kept s) (k : Nat) {cause : Option Nat} (outcome : Outcome)
    (hcause : ∀ j, cause = some j → j = k) : Kept (s.settlePending k cause outcome) := by
  unfold State.settlePending
  split
  · exact h
  · next p hp =>
    obtain ⟨hk, hopen, hd⟩ := h.open_of_pending hp
    exact h.settles hk hopen (OrderedMap.get?_erase _ _) (get?_of_absent hd)
      (h.timers_erase hp) rfl rfl rfl rfl hcause

theorem Kept.timerFires (h : Kept s) {handle : Nat} {timer : Timer}
    (ht : s.timers.get? handle = some timer) : Kept (s.timerFires handle timer) := by
  have hp := h.timer handle timer ht
  obtain ⟨hk, hopen, hd⟩ := h.open_of_pending hp
  exact h.settles hk hopen (OrderedMap.get?_erase _ _) (get?_of_absent hd) (h.timers_erase hp) rfl
    rfl rfl rfl nofun

theorem Kept.decoded (h : Kept s) {k : Nat} {d : Decoding} (hd : s.decoding.get? k = some d)
    (ok : Bool) : Kept (s.decoded k d ok) := by
  obtain ⟨hk, hnot⟩ := h.decoding k d hd
  have hopen := (h.covered k _ hk).mpr (.inr (OrderedMap.mem_of_get? hd))
  refine h.settles hk hopen (get?_of_absent (OrderedMap.not_mem_iff.mp hnot))
    (OrderedMap.get?_erase _ _) (fun j t => ⟨fun ht => ⟨ht, ?_⟩, And.left⟩) rfl rfl rfl rfl
    fun j hj => (Option.some_inj.mp hj).symm
  rintro rfl
  exact hnot (OrderedMap.mem_of_get? (h.timer j t ht))

/-- The request of a reply is no longer pending; it waits for the decoder. -/
theorem Kept.handleReply (h : Kept s) (correlationId : Option Nat) (rpcError : Bool) :
    Kept (s.handleReply correlationId rpcError) := by
  unfold State.handleReply
  split
  · exact h
  · next k =>
    split
    · exact h
    · next p hp =>
      obtain ⟨hk, hopen, hnone⟩ := h.open_of_pending hp
      have htimers := h.timers_erase hp
      refine ⟨fun j q hq => ?_, fun j t ht => ?_, fun j t ht => ?_, fun j d hd => ?_,
        fun j r hj => ?_, h.owner, h.stage, h.once, h.registered, h.own⟩
      · dsimp only at hq ⊢
        rw [OrderedMap.get?_erase] at hq
        split at hq
        · cases hq
        · next hne =>
          obtain ⟨hi, ht⟩ := h.entry j q hq
          exact ⟨hi, (htimers _ _).mpr ⟨ht, hne⟩⟩
      · obtain ⟨ht, hne⟩ := (htimers j t).mp ht
        dsimp only
        rw [OrderedMap.get?_erase, if_neg hne]
        exact h.timer j t ht
      · exact h.armed j t ((htimers j t).mp ht).1
      · dsimp only at hd ⊢
        rw [OrderedMap.get?_set] at hd
        rw [OrderedMap.mem_erase]
        split at hd
        · next heq =>
          cases hd
          subst heq
          exact ⟨hk, fun hmem => hmem.1 rfl⟩
        · obtain ⟨hi, hnot⟩ := h.decoding j d hd
          exact ⟨hi, fun hmem => hnot hmem.2⟩
      · dsimp only
        rw [h.covered j r hj, OrderedMap.mem_erase, OrderedMap.mem_set]
        by_cases heq : j = k
        · subst heq
          simp [OrderedMap.mem_of_get? hp]
        · simp [heq]

/-! ## The loss of the reply channel -/

theorem foldl_rejectPending (ps : List Pending) (s : State) (m : OrderedMap Nat Pending) :
    ps.foldl State.rejectPending { s with pendingRequests := m } =
      { ps.foldl State.rejectPending s with pendingRequests := m } := by
  induction ps generalizing s with
  | nil => rfl
  | cons p ps ih => exact ih (s.rejectPending p)

/-- The loop settles the entries one at a time. -/
theorem rejectAllPending_cons {k : Nat} {p : Pending} {l : List (Nat × Pending)}
    (hl : s.pendingRequests.entries = (k, p) :: l) : s.rejectAllPending =
      (s.settlePending k none (.rejected .connectionLost)).rejectAllPending := by
  have hturn : s.rejectPending p = { s.settlePending k none (.rejected .connectionLost) with
      pendingRequests := s.pendingRequests } := by
    rw [State.settlePending, OrderedMap.get?_head hl]
    rfl
  have hrest : (s.settlePending k none (.rejected .connectionLost)).pendingRequests.entries = l := by
    rw [State.settlePending, OrderedMap.get?_head hl]
    exact OrderedMap.entries_erase_head hl
  rw [State.rejectAllPending, State.rejectAllPending, hl, hrest, List.map_cons, List.foldl_cons,
    hturn, foldl_rejectPending]

theorem Kept.rejectAllPending (h : Kept s) : Kept s.rejectAllPending := by
  generalize hl : s.pendingRequests.entries = l
  induction l generalizing s with
  | nil =>
    rw [State.rejectAllPending, hl]
    refine h.same (OrderedMap.eq_empty_of_entries hl).symm rfl rfl rfl rfl rfl fun _ => id
  | cons e l ih =>
    obtain ⟨k, p⟩ := e
    rw [rejectAllPending_cons hl]
    refine ih (h.settlePending k _ nofun) ?_
    rw [State.settlePending, OrderedMap.get?_head hl]
    exact OrderedMap.entries_erase_head hl

theorem Kept.detachReplyListeners (h : Kept s) : Kept s.detachReplyListeners := by
  unfold State.detachReplyListeners
  split
  · exact h
  · exact h.same rfl rfl rfl rfl rfl rfl fun _ => id

theorem Kept.handleConnectionLoss (h : Kept s) : Kept s.handleConnectionLoss := by
  have hnext : Kept { s with connectionEpoch := s.connectionEpoch + 1 } :=
    h.same rfl rfl rfl rfl rfl rfl fun _ => id
  have hgone : Kept { { s with connectionEpoch := s.connectionEpoch + 1 }.detachReplyListeners with
      replyChannel := none } :=
    hnext.detachReplyListeners.same rfl rfl rfl rfl rfl rfl fun _ => id
  exact hgone.rejectAllPending

theorem Kept.invalidateReplyChannel (h : Kept s) (channel : Nat) :
    Kept (s.invalidateReplyChannel channel) := by
  unfold State.invalidateReplyChannel
  split
  · exact h
  · have hgone : Kept { s.detachReplyListeners with replyChannel := none } :=
      h.detachReplyListeners.same rfl rfl rfl rfl rfl rfl fun _ => id
    exact hgone.rejectAllPending

/-! ## The setup of the reply consumer -/

theorem setupSettles_registered (result : Except RpcError Nat) {r : Nat}
    (hr : s.requests.get? r = some .registered) :
    (s.setupSettles result).requests.get? r = some .registered := by
  dsimp only [State.setupSettles]
  refine List.foldlRecOn
    (motive := fun requests : OrderedMap Nat Stage => requests.get? r = some .registered)
    s.requests.keys _ hr fun requests hkept request _ => ?_
  split
  · next hjoining =>
    refine (OrderedMap.get?_set _ _ _ _).trans ((if_neg ?_).trans hkept)
    rintro rfl
    cases hjoining.symm.trans hkept
  · exact hkept

theorem Kept.setupSettles (h : Kept s) (result : Except RpcError Nat) :
    Kept (s.setupSettles result) :=
  h.same rfl rfl rfl rfl rfl rfl fun _ => setupSettles_registered result

theorem Kept.preflighted (h : Kept s) {request : Nat}
    (hstage : s.requests.get? request = some .preflight) (hasPool : Bool) :
    Kept (s.preflighted request hasPool) := by
  have hnot : s.requests.get? request ≠ some .registered := fun hr => by cases hstage.symm.trans hr
  unfold State.preflighted
  split
  · exact h.setStage hnot _
  · split
    · exact h.setStage hnot _
    · split
      · have hsetup : Kept { s with replySetup := some (.opening s.connectionEpoch) } :=
          h.same rfl rfl rfl rfl rfl rfl fun _ => id
        exact hsetup.setStage hnot _
      · exact h.setStage hnot _

theorem Kept.consumed (h : Kept s) (epoch channel : Nat) : Kept (s.consumed epoch channel) := by
  have hlistening : Kept { s with
      listening := channel :: s.listening
      replyListeners := some channel } := h.same rfl rfl rfl rfl rfl rfl fun _ => id
  unfold State.consumed
  dsimp only
  split
  · exact hlistening.detachReplyListeners.setupSettles _
  · have hset : Kept { s with
        listening := channel :: s.listening
        replyListeners := some channel
        replyChannel := some channel } :=
      hlistening.same rfl rfl rfl rfl rfl rfl fun _ => id
    exact hset.setupSettles _

/-! ## Registration -/

/-- A fresh correlation id has no entry, and a fresh handle no timer. -/
theorem Kept.register (h : Kept s) {request channel k : Nat}
    (hstage : s.requests.get? request = some (.encoding channel)) (hunique : k ∉ s.issued) :
    Kept (s.register request k) := by
  have hfresh := OrderedMap.not_mem_iff.mp hunique
  have hpending : s.pendingRequests.get? k = none := by
    cases hp : s.pendingRequests.get? k with
    | none => rfl
    | some p => cases hfresh.symm.trans (h.entry k p hp).1
  have hnot : s.requests.get? request ≠ some .registered := fun hr => by cases hstage.symm.trans hr
  have hother : ∀ j r, s.issued.get? j = some r → r ≠ request := by
    rintro j r hj rfl
    exact hnot (h.stage j r hj)
  have hopen : request ∉ s.settled.map (·.request) := fun hmem => by
    obtain ⟨x, hx, heq⟩ := List.mem_map.mp hmem
    obtain ⟨j, hj⟩ := h.registered x hx
    exact hother j _ hj heq
  have hissued : ∀ j r, s.issued.get? j = some r → (s.issued.set k request).get? j = some r := by
    intro j r hj
    refine (OrderedMap.get?_set _ _ _ _).trans ((if_neg ?_).trans hj)
    rintro rfl
    cases hfresh.symm.trans hj
  refine ⟨fun j p hp => ?_, fun j t ht => ?_, fun j t ht => ?_, fun j d hd => ?_,
    fun j r hj => ?_, fun j j' r hj hj' => ?_, fun j r hj => ?_, h.once, fun x hx => ?_,
    fun x hx j hj => hissued _ _ (h.own x hx j hj)⟩
  · dsimp only [State.register, State.setStage] at hp ⊢
    rw [OrderedMap.get?_set] at hp
    split at hp
    · next heq =>
      cases hp
      subst heq
      exact ⟨OrderedMap.get?_set_self _ _ _, OrderedMap.get?_set_self _ _ _⟩
    · obtain ⟨hi, ht⟩ := h.entry j p hp
      refine ⟨hissued j _ hi, ?_⟩
      rw [OrderedMap.get?_set, if_neg (Nat.ne_of_lt (h.armed _ _ ht))]
      exact ht
  · dsimp only [State.register, State.setStage] at ht ⊢
    rw [OrderedMap.get?_set] at ht
    split at ht
    · next heq =>
      cases ht
      subst heq
      exact OrderedMap.get?_set_self _ _ _
    · have hp := h.timer j t ht
      rw [OrderedMap.get?_set, if_neg]
      · exact hp
      · rintro rfl
        cases hpending.symm.trans hp
  · dsimp only [State.register, State.setStage] at ht ⊢
    rw [OrderedMap.get?_set] at ht
    split at ht
    · next heq => exact heq ▸ Nat.lt_succ_self _
    · exact Nat.lt_succ_of_lt (h.armed j t ht)
  · obtain ⟨hi, hd'⟩ := h.decoding j d hd
    refine ⟨hissued j _ hi, fun hmem => ?_⟩
    rcases OrderedMap.mem_set.mp hmem with rfl | hmem
    · cases hfresh.symm.trans hi
    · exact hd' hmem
  · dsimp only [State.register, State.setStage] at hj ⊢
    rw [OrderedMap.get?_set] at hj
    rw [OrderedMap.mem_set]
    split at hj
    · next heq =>
      cases hj
      exact ⟨fun _ => .inl (.inl heq), fun _ => hopen⟩
    · next hne => rw [h.covered j r hj, or_iff_right hne]
  · dsimp only [State.register, State.setStage] at hj hj'
    rw [OrderedMap.get?_set] at hj hj'
    split at hj
    · next heq =>
      cases hj
      split at hj'
      · next heq' => rw [heq, heq']
      · exact absurd rfl (hother j' _ hj')
    · split at hj'
      · cases hj'
        exact absurd rfl (hother j _ hj)
      · exact h.owner j j' r hj hj'
  · dsimp only [State.register, State.setStage] at hj ⊢
    rw [OrderedMap.get?_set] at hj ⊢
    split at hj
    · cases hj
      exact if_pos rfl
    · rw [if_neg (hother j r hj)]
      exact h.stage j r hj
  · obtain ⟨j, hj⟩ := h.registered x hx
    exact ⟨j, hissued _ _ hj⟩

/-! ## Every run -/

theorem Steps.kept {event : Event} (hs : Steps s event s') (h : Kept s) : Kept s' := by
  cases hs with
  | @request request timeout hfresh =>
    refine h.setStage (fun hr => hfresh (OrderedMap.mem_of_get? hr)) _
  | preflighted hstage => exact h.preflighted hstage _
  | preflightFails hstage =>
    exact h.setStage (fun hr => by cases hstage.symm.trans hr) _
  | channelOpened => exact h.same rfl rfl rfl rfl rfl rfl fun _ => id
  | channelFails => exact h.setupSettles _
  | consumed => exact h.consumed _ _
  | consumeFails => exact h.setupSettles _
  | encoded hstage hunique => exact h.register hstage hunique
  | encodeFails hstage =>
    exact h.setStage (fun hr => by cases hstage.symm.trans hr) _
  | reply => exact h.handleReply _ _
  | decoded hd => exact h.decoded hd _
  | cancelled => exact h.invalidateReplyChannel _
  | returned => exact h.settlePending _ _ fun j hj => (Option.some_inj.mp hj).symm
  | returnedUnknown => exact h
  | closed => exact h.invalidateReplyChannel _
  | connectionLost => exact h.handleConnectionLoss
  | timerFires htimer => exact h.timerFires htimer
  | published => exact h.same rfl rfl rfl rfl rfl rfl fun _ => id
  | @publishFails correlationId =>
    have hpublished : Kept { s with publishing := s.publishing.erase correlationId } :=
      h.same rfl rfl rfl rfl rfl rfl fun _ => id
    exact hpublished.settlePending _ _ nofun

theorem kept_of_reach (hr : Reach step anyStep start s) : Kept s :=
  hr.invariant kept_start fun h _ hs => (step_cases hs).kept h

/-- In every run, a registered request settles at most once, and waits on its timer or its reply
until it does. -/
theorem requests_settle_once (hr : Reach step anyStep start s) : SettledOnce s :=
  (kept_of_reach hr).settledOnce

/-- Two requests share the reply channel; the first is answered, and the loss of the connection
takes the second. -/
def answeredThenLost : List Event :=
  [.request 1 none, .request 2 (some 500), .preflighted 1 true true, .preflighted 2 true true,
    .channelOpened (some 7), .consumed true, .encoded 1 (some 10), .encoded 2 (some 20),
    .reply 7 (some 10) false, .reply 7 (some 10) false, .decoded 10 true, .connectionLost]

theorem answered_then_lost : ∃ s, Reach step anyStep start s ∧ SettledOnce s ∧
    s.settled = [⟨1, some 10, .resolved⟩, ⟨2, none, .rejected .connectionLost⟩] := by
  have hrun : (run step anyStep start answeredThenLost).any (fun s => decide
      (s.settled = [⟨1, some 10, .resolved⟩, ⟨2, none, .rejected .connectionLost⟩])) := by
    decide +kernel
  obtain ⟨s, hs, hsettled⟩ := (Option.any_eq_true _ _).mp hrun
  have hr := reach_of_run hs
  exact ⟨s, hr, requests_settle_once hr, of_decide_eq_true hsettled⟩

end Rpc
end RabbitMQ
