import RabbitMQ.Consumers.SequentialProcessor.Wakeup

/-! A success releases what is parked under its id: each delivery once, in the order of parking.

The list a loop walks is the one kept under the id, so the invariant is that the list is what is
parked there and not yet taken by a loop, in the order of `pending`. The one thing that can break
it is a delivery parked under an id which a loop has still to visit: the entry it once had must
have expired in the meantime. -/

namespace RabbitMQ
namespace SequentialProcessor

open Transition

variable {α : Type} [DecidableEq α]

/-- The steps of a run that settle callbacks without throwing, and park no delivery under an id
that a loop has still to visit. -/
structure Tidy (c : Config) (s : State α) (input : Hooks α × Event α) : Prop where
  settles : Settles c s input
  parks : ∀ {message}, input.2 = .handle message → ∀ id, message.messageId = some id →
    id ∈ s.toVisit → id ∈ s.pending ∨ s.unresolved message.dependsOn = none

/-- The ids parked under a dependency that are not among the given ones, in order of parking. -/
def State.parkedUnder (s : State α) (dependsOn : α) (taken : List α) : List α :=
  (s.pending.filter fun id data => decide (data.dependsOn = dependsOn ∧ id ∉ taken)).keys

/-- The lists of the index, against the ids the loops have to visit. -/
structure Aligned (s : State α) (toVisit : List α) : Prop where
  once : toVisit.Nodup
  listed : ∀ d, s.dependentsOf d = s.parkedUnder d toVisit

variable {c : Config} {h : Hooks α} {s s' : State α} {log out : List (Output α)}
  {toVisit : List α} {message : Message α} {root : Nat} {frame : Frame α}

theorem mem_parkedUnder {d id : α} : id ∈ s.parkedUnder d toVisit ↔
    ∃ data, s.pending.get? id = some data ∧ data.dependsOn = d ∧ id ∉ toVisit := by
  simp only [State.parkedUnder, OrderedMap.mem_keys_filter, decide_eq_true_eq]

theorem Aligned.congr (ha : Aligned s toVisit) (hpend : s'.pending = s.pending)
    (hindex : s'.pendingByDependency = s.pendingByDependency) : Aligned s' toVisit := by
  refine ⟨ha.once, fun d => ?_⟩
  rw [State.dependentsOf, hindex, State.parkedUnder, hpend]
  exact ha.listed d

theorem Aligned.perm {toVisit' : List α} (ha : Aligned s toVisit) (hv : toVisit.Perm toVisit') :
    Aligned s toVisit' := by
  refine ⟨hv.nodup_iff.mp ha.once, fun d => (ha.listed d).trans ?_⟩
  refine OrderedMap.keys_filter_congr fun id data _ => ?_
  simp only [hv.mem_iff]

/-- A call of `handle` that does not park under an id still to visit. -/
theorem Handles.aligned {r : State α × List (Output α) × Progress α} (H : Handles h s message r)
    (ha : Aligned s toVisit) (hfresh : ∀ id, message.messageId = some id → id ∈ toVisit →
      id ∈ s.pending ∨ s.unresolved message.dependsOn = none) : Aligned r.1 toVisit := by
  cases H with
  | duplicate hid hp => exact ha
  | @parks messageId dependsOn hid hd hp =>
    have hnot : messageId ∉ toVisit := fun hv => by
      rcases hfresh messageId hid hv with hm | hn
      · exact hp hm
      · rw [hd] at hn
        cases hn
    have hlist : ∀ d, (s.park messageId dependsOn message).parkedUnder d toVisit =
        s.parkedUnder d toVisit ++ if dependsOn = d then [messageId] else [] := by
      intro d
      refine (OrderedMap.keys_filter_set_of_not_mem hp _ _).trans ?_
      by_cases hd : dependsOn = d <;> simp [hd, hnot, State.parkedUnder]
    refine ⟨ha.once, fun d => ?_⟩
    rw [dependentsOf_park, hlist]
    by_cases hd : dependsOn = d
    · subst hd
      have : messageId ∉ s.dependentsOf dependsOn := fun hm => by
        rw [ha.listed] at hm
        obtain ⟨data, hget, _⟩ := mem_parkedUnder.mp hm
        exact hp (OrderedMap.mem_of_get? hget)
      rw [if_pos rfl, if_pos rfl, if_neg this, ha.listed]
    · rw [if_neg fun h => hd h.symm, if_neg hd, List.append_nil, ha.listed]
  | runs hfree => exact ha.congr rfl rfl

/-- A success: the loop takes what is parked under the id. -/
theorem Aligned.succeed (ha : Aligned s toVisit) (messageId : Option α) :
    let removal := s.removeProcessing messageId .success
    let dependents := removal.1.takeDependents messageId
    Aligned { s with
        processing := removal.1.processing
        pendingByDependency := dependents.1.pendingByDependency } (dependents.2 ++ toVisit) := by
  cases messageId with
  | none => exact ha.congr rfl rfl
  | some m =>
    intro removal dependents
    obtain ⟨htaken, hleft⟩ := takeDependents_some removal.1 m
    have htaken : dependents.2 = s.parkedUnder m toVisit := htaken.trans (ha.listed m)
    refine ⟨?_, fun d => (hleft d).trans ?_⟩
    · rw [htaken]
      refine List.nodup_append.mpr ⟨OrderedMap.keys_nodup _, ha.once, fun a hm b hv hab => ?_⟩
      obtain ⟨data, _, _, hnot⟩ := mem_parkedUnder.mp hm
      exact hnot (hab ▸ hv)
    · by_cases hd : d = m
      · subst hd
        rw [if_pos rfl]
        refine (List.eq_nil_iff_forall_not_mem.mpr fun id hi => ?_).symm
        obtain ⟨data, hget, hdep, hnot⟩ := mem_parkedUnder.mp hi
        rw [List.mem_append, not_or, htaken] at hnot
        exact hnot.1 (mem_parkedUnder.mpr ⟨data, hget, hdep, hnot.2⟩)
      · rw [if_neg hd]
        refine (ha.listed d).trans (OrderedMap.keys_filter_congr fun id data hget => ?_)
        refine decide_eq_decide.mpr (and_congr_right fun hdep => ?_)
        rw [htaken, List.mem_append, not_or, mem_parkedUnder]
        refine (and_iff_right ?_).symm
        rintro ⟨data', hget', hdep', _⟩
        rw [hget] at hget'
        cases hget'
        exact hd (hdep.symm.trans hdep')

/-- An entry expires. -/
theorem Aligned.expire (ha : Aligned s toVisit) {id : α} {data : Parked α}
    (hp : s.pending.get? id = some data) : Aligned (s.removePending id data.dependsOn) toVisit := by
  have hpend : (s.removePending id data.dependsOn).pending = s.pending.erase id :=
    removePending_pending s id data.dependsOn
  refine ⟨ha.once, fun d => ?_⟩
  rw [dependentsOf_removePending, State.parkedUnder, hpend, OrderedMap.keys_filter_erase]
  split
  · subst_vars
    rw [ha.listed, State.parkedUnder, OrderedMap.filter_keys_filter]
  · rename_i hd
    rw [ha.listed]
    refine OrderedMap.keys_filter_congr fun id' data' hget => ?_
    by_cases hid : id' = id
    · subst hid
      rw [hp] at hget
      cases hget
      simp [Ne.symm hd]
    · simp [hid]

/-- A loop visits an id that is gone. -/
theorem Aligned.skip {id : α} (ha : Aligned s (id :: toVisit)) (hp : s.pending.get? id = none) :
    Aligned s toVisit := by
  refine ⟨(List.nodup_cons.mp ha.once).2, fun d => (ha.listed d).trans ?_⟩
  refine OrderedMap.keys_filter_congr fun id' data hget => ?_
  have : id' ≠ id := by
    rintro rfl
    rw [hp] at hget
    cases hget
  simp [this]

/-- A loop visits an id that is still parked, and hands its delivery to `handle`. -/
theorem Aligned.release {id : α} {data : Parked α}
    {r : State α × List (Output α) × Progress α} (ha : Aligned s (id :: toVisit))
    (hid : data.message.messageId = some id)
    (H : Handles h { s with pending := s.pending.erase id } data.message r) :
    Aligned r.1 toVisit := by
  obtain ⟨hnot, honce⟩ := List.nodup_cons.mp ha.once
  refine H.aligned ⟨honce, fun d => ?_⟩ fun id' hm hv => ?_
  · rw [State.parkedUnder, OrderedMap.keys_filter_erase]
    refine (ha.listed d).trans (OrderedMap.keys_filter_congr fun id' data _ => ?_)
    by_cases hid : id' = id <;> simp [hid]
  · rw [hid] at hm
    cases hm
    exact absurd hv hnot

theorem Handles.child_remaining {s₁ : State α} {child : Frame α}
    (H : Handles h s message (s₁, out, .running child)) : child.remaining = [] := by
  simpa [Progress.onto] using H.onto_remaining []

/-- The obligation of a step that leaves the stack `new` at `root`. -/
private theorem Aligned.move (ha : Aligned s toVisit) (root : Nat)
    (calls : OrderedMap Nat (List (Frame α))) (new : List (Frame α)) (hcalls : s'.calls = resumed calls root new)
    (hpend : s'.pending = s.pending) (hindex : s'.pendingByDependency = s.pendingByDependency)
    (hv : toVisit.Perm (new.flatMap Frame.remaining ++ visitsOf (calls.erase root))) :
    Aligned s' s'.toVisit := by
  refine (ha.congr hpend hindex).perm (hv.trans ?_)
  rw [State.toVisit, hcalls]
  exact (visitsOf_resumed calls root new).symm

variable [ToString α]

theorem Aligned.steps {event : Event α} {r : State α × List (Output α)} (hw : Woken (s, log))
    (ha : Aligned s s.toVisit) (hok : Tidy c s (h, event)) (hs : Calm c h s event r) :
    Aligned r.1 r.1.toVisit := by
  have hsplit : ∀ {root stack}, s.calls.get? root = some stack →
      Aligned s (stack.flatMap Frame.remaining ++ visitsOf (s.calls.erase root)) := fun hcall =>
    ha.perm (visitsOf_get? hcall)
  cases hs with
  | @handled message s₁ out progress result hfresh H =>
    have hvisit : s₁.toVisit = s.toVisit := (congrArg State.toVisit H.frame :)
    have hnew := H.aligned (ha.congr rfl rfl) (hok.parks rfl)
    exact hvisit ▸ hnew
  | @started message s₁ out child hfresh H =>
    have hnew := H.aligned (ha.congr rfl rfl) (hok.parks rfl)
    refine (hnew.perm (.symm ?_)).congr rfl rfl
    have hvisits := visitsOf_started hw.roots hfresh child
    rwa [H.child_remaining] at hvisits
  | @succeeds root message startTime rest hcall =>
    refine ((hsplit hcall).succeed message.messageId).move root s.calls
      (⟨message, startTime, .dependents _⟩ :: rest) rfl rfl rfl ?_
    simp only [List.flatMap_cons, Frame.remaining, List.nil_append, List.append_assoc]
    exact .refl _
  | @fails root message startTime rest error requeue hcall =>
    exact (hsplit hcall).move root s.calls rest rfl rfl rfl (.refl _)
  | @loopEnds root message startTime rest hcall =>
    exact (hsplit hcall).move root s.calls rest rfl rfl rfl (.refl _)
  | @skips root message startTime pendingId remaining rest hcall hp =>
    have hskip : Aligned s (remaining ++ rest.flatMap Frame.remaining ++
        visitsOf (s.calls.erase root)) := (hsplit hcall).skip hp
    exact hskip.move root s.calls (⟨message, startTime, .dependents remaining⟩ :: rest)
      rfl rfl rfl (.refl _)
  | @releases root message startTime pendingId remaining rest data s₁ out progress hcall hp H =>
    have hnew : Aligned s₁ (remaining ++ rest.flatMap Frame.remaining ++
        visitsOf (s.calls.erase root)) := (hsplit hcall).release (hw.wakeful.stored hp).1 H
    refine hnew.move root s.calls
      (progress.onto (⟨message, startTime, .dependents remaining⟩ :: rest)) ?_ rfl rfl ?_
    · cases progress <;> rfl
    · have hstack : (progress.onto (⟨message, startTime, .dependents remaining⟩ :: rest)).flatMap
          Frame.remaining = remaining ++ rest.flatMap Frame.remaining := H.onto_remaining _
      rw [hstack]
  | cleanup =>
    have hframe := sweepPending_frame c h s.pending.entries (sweepProcessing c s).1
    have hvisit : (cleanup c h s).1.toVisit = s.toVisit := (congrArg State.toVisit hframe :)
    rw [hvisit]
    exact sweepPending_keeps (P := fun s' => Aligned s' s.toVisit)
      (fun ha hp => ha.expire hp) s.pending.entries (ha.congr rfl rfl)
      (fun e he => OrderedMap.get?_eq_some_iff.mpr he) s.pending.nodup
  | tick => exact ha.congr rfl rfl

/-! ## Following one loop -/

def Output.visit (root depth : Nat) : Output α → Option α
  | .visited r n id => if r = root ∧ n = depth then some id else none
  | _ => none

/-- The ids taken by the loop of the call that has `depth` others below it on the stack. -/
def visitsBy (root depth : Nat) (log : List (Output α)) : List α :=
  log.filterMap (·.visit root depth)

omit [DecidableEq α] [ToString α] in
theorem visitsBy_append (root depth : Nat) (log out : List (Output α)) :
    visitsBy root depth (log ++ out) = visitsBy root depth log ++ visitsBy root depth out :=
  List.filterMap_append

omit [DecidableEq α] [ToString α] in
theorem visitsBy_visited (root depth r n : Nat) (id : α) (out : List (Output α)) :
    visitsBy root depth (.visited r n id :: out) =
      (if r = root ∧ n = depth then [id] else []) ++ visitsBy root depth out := by
  simp only [visitsBy, List.filterMap_cons, Output.visit]
  split <;> simp_all

omit [ToString α] in
theorem visitsBy_removeProcessing (root depth : Nat) (s : State α) (messageId : Option α)
    (cause : Cause) : visitsBy root depth (s.removeProcessing messageId cause).2 = [] := by
  cases messageId with
  | none => rfl
  | some id =>
    simp only [State.removeProcessing]
    split <;> rfl

omit [ToString α] in
theorem Handles.visits {r : State α × List (Output α) × Progress α} (H : Handles h s message r)
    (root depth : Nat) : visitsBy root depth r.2.1 = [] := by
  cases H <;> rfl

omit [ToString α] in
theorem Handles.pending_mono {r : State α × List (Output α) × Progress α}
    (H : Handles h s message r) {id : α} (hp : id ∈ s.pending) : id ∈ r.1.pending := by
  cases H with
  | duplicate => exact hp
  | parks => exact OrderedMap.mem_set.mpr (.inr hp)
  | runs => exact hp

theorem sweepPending_visits (root depth : Nat) (entries : List (α × Parked α)) (s : State α) :
    visitsBy root depth (sweepPending c h entries s).2 = [] := by
  induction entries generalizing s with
  | nil => rfl
  | cons e entries ih =>
    simp only [sweepPending]
    split
    · split
      · rfl
      · split
        · rfl
        · rw [visitsBy_append, ih]
          rfl
    · exact ih s

omit [DecidableEq α] [ToString α] in
theorem sweepProcessing_visits (root depth : Nat) (c : Config) (s : State α) :
    visitsBy root depth (sweepProcessing c s).2 = [] := by
  simp [sweepProcessing, visitsBy, Output.visit]

/-- What the sweep takes out of `pending` is reported as expired. -/
theorem sweepPending_expired (entries : List (α × Parked α)) (s : State α) {id : α}
    (hp : id ∈ s.pending) : id ∈ (sweepPending c h entries s).1.pending ∨
      .removed id .expired ∈ (sweepPending c h entries s).2 := by
  induction entries generalizing s with
  | nil => exact .inl hp
  | cons e entries ih =>
    obtain ⟨messageId, data⟩ := e
    have hpend : (s.removePending messageId data.dependsOn).pending = s.pending.erase messageId :=
      removePending_pending s messageId data.dependsOn
    have hleft : id ≠ messageId → id ∈ (s.removePending messageId data.dependsOn).pending :=
      fun hne => hpend ▸ OrderedMap.mem_erase.mpr ⟨hne, hp⟩
    simp only [sweepPending]
    split
    · by_cases hid : id = messageId
      · subst hid
        refine .inr ?_
        split
        · simp
        · split <;> simp
      · split
        · exact .inl (hleft hid)
        · split
          · exact .inl (hleft hid)
          · exact (ih _ (hleft hid)).imp_right (List.mem_append_right _)
    · exact ih s hp

/-- The loop at `frame` is not on top of the stack of `root'`: it is on another stack, or among the
frames `rest'` below the top. -/
def Elsewhere (root : Nat) (frame : Frame α) (rest : List (Frame α)) (root' : Nat)
    (rest' : List (Frame α)) : Prop :=
  root ≠ root' ∨ root = root' ∧ ∃ above, rest' = above ++ frame :: rest

section Elsewhere

variable {calls : OrderedMap Nat (List (Frame α))} {root' : Nat} {top : Frame α}
  {above rest rest' : List (Frame α)}

omit [DecidableEq α] [ToString α] in
/-- A loop is elsewhere, or the one on top of the stack a step works on. -/
theorem locate (hcall : calls.get? root = some (above ++ frame :: rest))
    (hcall' : calls.get? root' = some (top :: rest')) :
    Elsewhere root frame rest root' rest' ∨
      root = root' ∧ above = [] ∧ frame = top ∧ rest = rest' := by
  by_cases hroot : root = root'
  · subst hroot
    rw [hcall] at hcall'
    cases above with
    | nil =>
      cases hcall'
      exact .inr ⟨rfl, rfl, rfl, rfl⟩
    | cons a above =>
      cases hcall'
      exact .inl (.inr ⟨rfl, above, rfl⟩)
  · exact .inl (.inl hroot)

omit [DecidableEq α] [ToString α] in
/-- The id at the head of the loop on top of a stack is not to be visited by a loop elsewhere. -/
theorem Elsewhere.not_visited (hother : Elsewhere root frame rest root' rest')
    (hn : (visitsOf calls).Nodup) (hcall : calls.get? root = some (above ++ frame :: rest))
    (hcall' : calls.get? root' = some (top :: rest')) {id : α} (hid : id ∈ top.remaining) :
    id ∉ frame.remaining := by
  have hsplit := (visitsOf_get? hcall').nodup_iff.mp hn
  rw [List.flatMap_cons, List.append_assoc] at hsplit
  intro hmem
  refine List.disjoint_of_nodup_append hsplit hid ?_
  rcases hother with hroot | ⟨-, above', hrest⟩
  · refine List.mem_append_right _ ?_
    refine List.mem_flatMap.mpr ⟨(root, above ++ frame :: rest), ?_,
      List.mem_flatMap.mpr ⟨frame, List.mem_append_right above List.mem_cons_self, hmem⟩⟩
    rw [← OrderedMap.get?_eq_some_iff, OrderedMap.get?_erase, if_neg hroot, hcall]
  · exact List.mem_append_left _ (List.mem_flatMap.mpr ⟨frame, by simp [hrest], hmem⟩)

omit [DecidableEq α] [ToString α] in
/-- What a loop elsewhere visits is not counted for this one. -/
theorem Elsewhere.visits (hother : Elsewhere root frame rest root' rest') (id : α)
    (out : List (Output α)) : visitsBy root rest.length (.visited root' rest'.length id :: out) =
      visitsBy root rest.length out := by
  rw [visitsBy_visited, if_neg, List.nil_append]
  rintro ⟨rfl, hlength⟩
  rcases hother with hroot | ⟨-, above, rfl⟩
  · exact hroot rfl
  · rw [List.length_append, List.length_cons] at hlength
    omega

omit [DecidableEq α] [ToString α] in
/-- A step of a call that is elsewhere leaves the loop where it is. -/
theorem Elsewhere.stack (hother : Elsewhere root frame rest root' rest')
    (hcall : calls.get? root = some (above ++ frame :: rest)) (new : List (Frame α)) :
    ∃ above', (resumed calls root' (new ++ rest')).get? root =
      some (above' ++ frame :: rest) := by
  rw [get?_resumed]
  rcases hother with hroot | ⟨hroot, above', rfl⟩
  · exact ⟨above, by rw [if_neg hroot, hcall]⟩
  · refine ⟨new ++ above', ?_⟩
    rw [if_pos hroot, if_neg (by simp), List.append_assoc]

omit [DecidableEq α] [ToString α] in
/-- A call on top settles, so it is not the loop. -/
theorem stack_settled (hcall : calls.get? root = some (above ++ frame :: rest))
    (hcall' : calls.get? root' = some (top :: rest')) (hne : frame ≠ top)
    (new : List (Frame α)) :
    ∃ above', (resumed calls root' (new ++ rest')).get? root =
      some (above' ++ frame :: rest) :=
  ((locate hcall hcall').resolve_right fun h => hne h.2.2.1).stack hcall new

end Elsewhere

/-- One step, seen from a loop: it takes the ids `taken` and has `left` to visit. -/
structure Follows (s : State α) (r : State α × List (Output α)) (root : Nat) (frame : Frame α)
    (rest : List (Frame α)) (taken left : List α) : Prop where
  split : frame.remaining = taken ++ left
  visits : visitsBy root rest.length r.2 = taken
  stack : ∃ above, r.1.calls.get? root =
    some (above ++ { frame with stage := .dependents left } :: rest)
  released : ∀ id ∈ taken, id ∈ s.pending → .removed id .released ∈ r.2
  kept : ∀ id ∈ left, id ∈ s.pending → id ∈ r.1.pending ∨ .removed id .expired ∈ r.2

section Follows

variable {startTime root' startTime' : Nat} {message' : Message α} {id pendingId : α}
  {remaining remaining' : List α} {above rest rest' : List (Frame α)}

omit [DecidableEq α] [ToString α] in
/-- The step leaves the loop where it is. -/
theorem Follows.idle {r : State α × List (Output α)} (hstack : ∃ above', r.1.calls.get? root =
      some (above' ++ ⟨message, startTime, .dependents remaining⟩ :: rest))
    (hvisits : visitsBy root rest.length r.2 = [])
    (hkept : ∀ id ∈ remaining, id ∈ s.pending →
      id ∈ r.1.pending ∨ .removed id .expired ∈ r.2) :
    Follows s r root ⟨message, startTime, .dependents remaining⟩ rest [] remaining :=
  ⟨rfl, hvisits, hstack, fun _ hid => absurd hid List.not_mem_nil, hkept⟩

omit [ToString α] in
/-- A loop visits an id that has expired. -/
theorem follows_skips (hcall : s.calls.get? root =
      some (above ++ ⟨message, startTime, .dependents (id :: remaining)⟩ :: rest))
    (hcall' : s.calls.get? root' =
      some (⟨message', startTime', .dependents (pendingId :: remaining')⟩ :: rest'))
    (hp : s.pending.get? pendingId = none) :
    ∃ taken left, Follows s ({ s with
        calls := s.calls.set root' (⟨message', startTime', .dependents remaining'⟩ :: rest') },
      [.visited root' rest'.length pendingId]) root
      ⟨message, startTime, .dependents (id :: remaining)⟩ rest taken left := by
  rcases locate hcall hcall' with hother | ⟨rfl, rfl, hframe, rfl⟩
  · exact ⟨[], _, .idle (hother.stack hcall [_]) (hother.visits pendingId []) fun _ _ => .inl⟩
  · cases hframe
    refine ⟨[id], remaining, rfl, ?_, ⟨[], OrderedMap.get?_set_self ..⟩, fun id' hid hp' => ?_,
      fun _ _ => .inl⟩
    · rw [visitsBy_visited, if_pos ⟨rfl, rfl⟩]
      rfl
    · rw [List.mem_singleton.mp hid, OrderedMap.mem_iff, hp] at hp'
      obtain ⟨_, hp'⟩ := hp'
      cases hp'

omit [ToString α] in
/-- A loop visits an id that is still parked, and its delivery is handled. -/
theorem follows_releases (hn : s.toVisit.Nodup) {data : Parked α} {progress : Progress α}
    (hcall : s.calls.get? root =
      some (above ++ ⟨message, startTime, .dependents (id :: remaining)⟩ :: rest))
    (hcall' : s.calls.get? root' =
      some (⟨message', startTime', .dependents (pendingId :: remaining')⟩ :: rest'))
    (H : Handles h { s with pending := s.pending.erase pendingId } data.message
      (s', out, progress)) :
    ∃ taken left, Follows s ({ s' with
        calls := s.calls.set root'
          (progress.onto (⟨message', startTime', .dependents remaining'⟩ :: rest')) },
      .visited root' rest'.length pendingId :: .removed pendingId .released :: out) root
      ⟨message, startTime, .dependents (id :: remaining)⟩ rest taken left := by
  have hout : visitsBy root rest.length (.removed pendingId .released :: out) = [] :=
    H.visits root rest.length
  have hkept : ∀ id', id' ≠ pendingId → id' ∈ s.pending → id' ∈ s'.pending := fun id' hne hp =>
    H.pending_mono (OrderedMap.mem_erase.mpr ⟨hne, hp⟩)
  rcases locate hcall hcall' with hother | ⟨rfl, rfl, hframe, rfl⟩
  · refine ⟨[], _, .idle ?_ ((hother.visits _ _).trans hout) fun id' hid' hp => .inl ?_⟩
    · cases progress with
      | running child => exact hother.stack hcall [child, _]
      | _ => exact hother.stack hcall [_]
    · refine hkept id' ?_ hp
      rintro rfl
      exact hother.not_visited hn hcall hcall' List.mem_cons_self hid'
  · cases hframe
    have hnot : id ∉ remaining := by
      have hsplit := (visitsOf_get? hcall).nodup_iff.mp hn
      rw [List.nil_append, List.flatMap_cons, List.append_assoc] at hsplit
      exact (List.nodup_cons.mp (List.nodup_append.mp hsplit).1).1
    refine ⟨[id], remaining, rfl, ?_, ?_, fun id' hid' _ => ?_,
      fun id' hid' hp => .inl (hkept id' (fun h => hnot (h ▸ hid')) hp)⟩
    · rw [visitsBy_visited, hout, if_pos ⟨rfl, rfl⟩]
      rfl
    · rw [OrderedMap.get?_set_self]
      cases progress with
      | running child => exact ⟨[child], rfl⟩
      | _ => exact ⟨[], rfl⟩
    · rw [List.mem_singleton.mp hid']
      simp

/-- The sweep runs no loop, and what it takes has expired. -/
theorem follows_cleanup (hcall : s.calls.get? root =
      some (above ++ ⟨message, startTime, .dependents remaining⟩ :: rest)) :
    Follows s (cleanup c h s) root ⟨message, startTime, .dependents remaining⟩ rest [] remaining := by
  have hframe := sweepPending_frame c h s.pending.entries (sweepProcessing c s).1
  have hcalls : (cleanup c h s).1.calls = s.calls := (congrArg State.calls hframe :)
  refine .idle ⟨above, hcalls ▸ hcall⟩ ?_ fun id' _ hp => ?_
  · simp only [cleanup, visitsBy_append, sweepPending_visits, sweepProcessing_visits,
      List.append_nil]
  · refine (sweepPending_expired s.pending.entries (sweepProcessing c s).1 hp).imp_right fun h => ?_
    exact List.mem_append_right _ h

theorem Calm.follows {event : Event α} {r : State α × List (Output α)} (hw : Woken (s, log))
    (hn : s.toVisit.Nodup) (hs : Calm c h s event r)
    (hcall : s.calls.get? root =
      some (above ++ ⟨message, startTime, .dependents (id :: remaining)⟩ :: rest)) :
    ∃ taken left, Follows s r root ⟨message, startTime, .dependents (id :: remaining)⟩ rest
      taken left := by
  cases hs with
  | @handled message' s₁ out progress result hfresh H =>
    have hcalls : s₁.calls = s.calls := (congrArg State.calls H.frame :)
    refine ⟨[], _, .idle ⟨above, hcalls ▸ hcall⟩ ?_ fun id' _ hp => .inl (H.pending_mono hp)⟩
    rw [visitsBy_append, show visitsBy root rest.length out = [] from H.visits ..]
    rfl
  | @started message' s₁ out child hfresh H =>
    refine ⟨[], _, .idle ⟨above, ?_⟩ (H.visits ..) fun id' _ hp => .inl (H.pending_mono hp)⟩
    have hroot : root ≠ message'.tag := by
      rintro rfl
      exact hfresh (hw.roots hcall)
    rw [OrderedMap.get?_set, if_neg hroot, hcall]
  | succeeds hcall' =>
    refine ⟨[], _, .idle (stack_settled hcall hcall' nofun [_]) ?_ fun _ _ => .inl⟩
    rw [visitsBy_append, visitsBy_removeProcessing]
    rfl
  | fails hcall' =>
    refine ⟨[], _, .idle (stack_settled hcall hcall' nofun []) ?_ fun _ _ => .inl⟩
    rw [visitsBy_append, visitsBy_removeProcessing]
    split <;> rfl
  | loopEnds hcall' =>
    refine ⟨[], _, .idle (stack_settled hcall hcall' nofun []) ?_ fun _ _ => .inl⟩
    dsimp only
    split <;> rfl
  | skips hcall' hp => exact follows_skips hcall hcall' hp
  | releases hcall' hp H => exact follows_releases hn hcall hcall' H
  | cleanup => exact ⟨[], _, follows_cleanup hcall⟩
  | tick => exact ⟨[], _, .idle ⟨above, hcall⟩ rfl fun _ _ => .inl⟩

end Follows

/-- What a loop that took `ids` has done since the outputs `log`: it has visited a first part of
them in order, each of these was released or had expired, and the rest is still to visit. -/
def Released (log : List (Output α)) (root : Nat) (frame : Frame α) (rest : List (Frame α))
    (ids : List α) (w : State α × List (Output α)) : Prop :=
  ∃ visited left since later, ids = visited ++ left ∧ w.2 = log ++ since ++ later ∧
    visitsBy root rest.length since = visited ∧
    (∀ id ∈ visited, .removed id .released ∈ since ∨ .removed id .expired ∈ since) ∧
    (left = [] ∨ later = [] ∧ ∃ above, w.1.calls.get? root =
      some (above ++ { frame with stage := .dependents left } :: rest))

/-- `Released` with what the induction needs: an id still to visit is parked, or has expired. -/
def Releasing (log : List (Output α)) (root : Nat) (frame : Frame α) (rest : List (Frame α))
    (ids : List α) (w : State α × List (Output α)) : Prop :=
  ∃ visited left since later, ids = visited ++ left ∧ w.2 = log ++ since ++ later ∧
    visitsBy root rest.length since = visited ∧
    (∀ id ∈ visited, .removed id .released ∈ since ∨ .removed id .expired ∈ since) ∧
    (left = [] ∨ later = [] ∧
      (∃ above, w.1.calls.get? root =
        some (above ++ { frame with stage := .dependents left } :: rest)) ∧
      ∀ id ∈ left, id ∈ w.1.pending ∨ .removed id .expired ∈ since)

omit [DecidableEq α] [ToString α] in
theorem Releasing.released {log₀ : List (Output α)} {ids : List α} {rest : List (Frame α)}
    {w : State α × List (Output α)} (h : Releasing log₀ root frame rest ids w) :
    Released log₀ root frame rest ids w := by
  obtain ⟨visited, left, since, later, hids, hlog, hvisits, hdone, hleft⟩ := h
  exact ⟨visited, left, since, later, hids, hlog, hvisits, hdone,
    hleft.imp_right fun ⟨hlater, hstack, _⟩ => ⟨hlater, hstack⟩⟩

theorem Releasing.steps {log₀ : List (Output α)} {ids : List α} {rest : List (Frame α)}
    {startTime : Nat} {stage : Stage α} {event : Event α} {r : State α × List (Output α)}
    (hw : Woken (s, log)) (hn : s.toVisit.Nodup) (hs : Calm c h s event r)
    (hrel : Releasing log₀ root ⟨message, startTime, stage⟩ rest ids (s, log)) :
    Releasing log₀ root ⟨message, startTime, stage⟩ rest ids (r.1, log ++ r.2) := by
  obtain ⟨visited, left, since, later, rfl, rfl, hvisits, hdone, hleft⟩ := hrel
  cases left with
  | nil =>
    exact ⟨visited, [], since, later ++ r.2, rfl, (List.append_assoc ..), hvisits, hdone, .inl rfl⟩
  | cons id left =>
    rcases hleft with hnil | ⟨rfl, ⟨above, hcall⟩, hparked⟩
    · cases hnil
    obtain ⟨taken, left', hf⟩ := hs.follows hw hn hcall
    have hsplit : id :: left = taken ++ left' := hf.split
    refine ⟨visited ++ taken, left', since ++ r.2, [], ?_, ?_, ?_, ?_, .inr ⟨rfl, hf.stack, ?_⟩⟩
    · rw [hsplit, List.append_assoc]
    · simp only [List.append_nil, List.append_assoc]
    · rw [visitsBy_append, hvisits, hf.visits]
    · intro id' hid'
      rcases List.mem_append.mp hid' with hid' | hid'
      · exact (hdone id' hid').imp (List.mem_append_left _) (List.mem_append_left _)
      · rcases hparked id' (hsplit ▸ List.mem_append_left _ hid') with hp | he
        · exact .inl (List.mem_append_right _ (hf.released id' hid' hp))
        · exact .inr (List.mem_append_left _ he)
    · intro id' hid'
      rcases hparked id' (hsplit ▸ List.mem_append_right _ hid') with hp | he
      · exact (hf.kept id' hid' hp).imp_right (List.mem_append_right _)
      · exact .inr (List.mem_append_left _ he)

/-! ## Every run -/

/-- The invariants of a tidy run. -/
theorem aligned_step {w : State α × List (Output α)} {input : Hooks α × Event α}
    {r : State α × List (Output α)} (hw : Woken w ∧ Aligned w.1 w.1.toVisit)
    (hok : Tidy c w.1 input) (hs : step c w.1 input = some r) :
    Calm c input.1 w.1 input.2 r ∧ Woken (r.1, w.2 ++ r.2) ∧ Aligned r.1 r.1.toVisit :=
  have hcalm := calm_cases (fun hp => (hw.1.wakeful.stored hp).1) hok.settles (step_cases hs)
  ⟨hcalm, hw.1.steps hcalm, hw.2.steps hw.1 hok hcalm⟩

theorem aligned_of_reach {w : State α × List (Output α)}
    (hr : Reach (logged (step c)) (fun w => Tidy c w.1) (start, []) w) :
    Woken w ∧ Aligned w.1 w.1.toVisit := by
  refine hr.invariant (I := fun w => Woken w ∧ Aligned w.1 w.1.toVisit)
    ⟨woken_start, List.nodup_nil, fun _ => rfl⟩ fun hw hok hlogged => ?_
  obtain ⟨s', out, hs, rfl⟩ := logged_eq_some hlogged
  exact (aligned_step hw hok hs).2

/-- A loop that takes a parked delivery starts it, or parks it again under its dependency, which
is then unresolved. -/
def HandsOver (c : Config) (w : State α × List (Output α)) : Prop :=
  ∀ {h root message startTime id remaining rest data r},
    w.1.calls.get? root = some (⟨message, startTime, .dependents (id :: remaining)⟩ :: rest) →
    w.1.pending.get? id = some data → step c w.1 (h, .processDependents root) = some r →
      .callback data.message ∈ r.2 ∨
        r.1.pending.get? id = some ⟨data.message, data.dependsOn, w.1.now⟩ ∧
          r.1.Tracks data.dependsOn

/-- When a delivery of `d` succeeds, its loop visits what is parked under `d` and not yet taken by
another loop: each id once and in the order of parking, in whatever way the run goes on. -/
def ReleasesParked (c : Config) (w : State α × List (Output α)) : Prop :=
  ∀ {h root message startTime rest d r},
    w.1.calls.get? root = some (⟨message, startTime, .callback⟩ :: rest) →
    message.messageId = some d → Tidy c w.1 (h, .callbackResolved root) →
    step c w.1 (h, .callbackResolved root) = some r →
    ∀ {w'}, Reach (logged (step c)) (fun w => Tidy c w.1) (r.1, w.2 ++ r.2) w' →
      Released (w.2 ++ r.2) root ⟨message, startTime, .callback⟩ rest
        (w.1.parkedUnder d w.1.toVisit) w'

theorem Woken.handsOver {w : State α × List (Output α)} (hw : Woken w) : HandsOver c w := by
  intro h root message startTime id remaining rest data r hcall hp hs
  have hcalm : Calm c h w.1 (.processDependents root) r :=
    calm_cases (fun hp => (hw.wakeful.stored hp).1) trivial (step_cases hs)
  obtain ⟨hid, hdep⟩ := hw.wakeful.stored hp
  cases hcalm with
  | loopEnds hcall' =>
    rw [hcall] at hcall'
    cases hcall'
  | skips hcall' hnone =>
    rw [hcall] at hcall'
    cases hcall'
    rw [hp] at hnone
    cases hnone
  | @releases root message' startTime' pendingId remaining' rest' data' s₁ out progress hcall' hp' H =>
    rw [hcall] at hcall'
    cases hcall'
    rw [hp] at hp'
    cases hp'
    cases H with
    | duplicate hid' hmem =>
      rw [hid] at hid'
      cases hid'
      exact absurd rfl (OrderedMap.mem_erase.mp hmem).1
    | parks hid' hd hmem =>
      rw [hid] at hid'
      cases hid'
      obtain ⟨hd, htracks⟩ := unresolved_eq_some hd
      rw [hdep] at hd
      cases hd
      refine .inr ⟨OrderedMap.get?_set_self .., ?_⟩
      exact htracks.imp_right fun hm => OrderedMap.mem_set.mpr (.inr hm)
    | runs hfree => exact .inl (by simp)

theorem releasesParked {w : State α × List (Output α)}
    (hw : Woken w ∧ Aligned w.1 w.1.toVisit) : ReleasesParked c w := by
  intro h root message startTime rest d r hcall hid hok hs w' hr
  obtain ⟨hcalm, hw₁⟩ := aligned_step hw hok hs
  have hfirst : Releasing (w.2 ++ r.2) root ⟨message, startTime, .callback⟩ rest
      (w.1.parkedUnder d w.1.toVisit) (r.1, w.2 ++ r.2) := by
    cases hcalm with
    | succeeds hcall' =>
      rw [hcall] at hcall'
      cases hcall'
      have htaken : ((w.1.removeProcessing message.messageId .success).1.takeDependents
          message.messageId).2 = w.1.parkedUnder d w.1.toVisit := by
        rw [hid, (takeDependents_some _ d).1]
        exact hw.2.listed d
      refine ⟨[], w.1.parkedUnder d w.1.toVisit, [], [], rfl, by simp, rfl,
        fun id hid => absurd hid List.not_mem_nil, .inr ⟨rfl, ⟨[], ?_⟩, fun id hid => .inl ?_⟩⟩
      · rw [← htaken]
        exact OrderedMap.get?_set_self ..
      · obtain ⟨data, hget, _⟩ := mem_parkedUnder.mp hid
        exact OrderedMap.mem_of_get? hget
  refine (Releasing.released ?_)
  have hinv := hr.invariant (I := fun w' => (Woken w' ∧ Aligned w'.1 w'.1.toVisit) ∧
    Releasing (w.2 ++ r.2) root ⟨message, startTime, .callback⟩ rest
      (w.1.parkedUnder d w.1.toVisit) w') ⟨hw₁, hfirst⟩ fun hinv hok hlogged => ?_
  · exact hinv.2
  · obtain ⟨s', out, hs, rfl⟩ := logged_eq_some hlogged
    obtain ⟨hcalm, hnext⟩ := aligned_step hinv.1 hok hs
    exact ⟨hnext, hinv.2.steps hinv.1.1 hinv.1.2.once hcalm⟩

/-- No wake-up is lost: in every run in which settling a callback throws nothing. What a success
releases is released in order and once if, moreover, no delivery is parked under an id that a loop
has still to visit. -/
theorem no_lost_wakeup {w : State α × List (Output α)}
    (hr : Reach (logged (step c)) (fun w => Settles c w.1) (start, []) w) :
    (∀ {id data}, w.1.pending.get? id = some data → Awaited w id data.dependsOn) ∧
      HandsOver c w ∧
      (Reach (logged (step c)) (fun w => Tidy c w.1) (start, []) w → ReleasesParked c w) :=
  have hw := Woken.of_reach hr
  ⟨hw.wakeful.wakes, hw.handsOver, fun hr => releasesParked (aligned_of_reach hr)⟩

/-- Two deliveries wait for a third one; it succeeds, and its loop starts the first, whose callback
throws `error`. -/
def releaseRun (error : Value) : List (Hooks String × Event String) :=
  [.handle { tag := 1, messageId := some "order" },
    .handle { tag := 2, messageId := some "first", dependsOn := some "order" },
    .handle { tag := 3, messageId := some "second", dependsOn := some "order" },
    .callbackResolved 1, .processDependents 1, .callbackRejected 1 error].map
      (Hooks.returning false, ·)

theorem no_lost_wakeup_run : ∃ w : State String × List (Output String),
    (w.1.pending.get? "second").map (·.dependsOn) = some "order" ∧
      Awaited w "second" "order" := by
  have hok : ∀ e ∈ releaseRun (.error "no stock"), ∀ w : State String × List (Output String),
      Settles ⟨30000, true⟩ w.1 e := fun e he w => by
    refine Orderly.settles (orderly_of_mem_map ?_ e he) w.1
    simp [Event.Loggable, Config.Loggable, describable_error]
  have hrun : (run (logged (step ⟨30000, true⟩)) anyStep (start, [])
      (releaseRun (.error "no stock"))).any fun w =>
        (w.1.pending.get? "second").map (·.dependsOn) = some "order" := by decide +kernel
  obtain ⟨w, hw, hparked⟩ := (Option.any_eq_true _ _).mp hrun
  obtain ⟨data, hget, hdep⟩ := Option.map_eq_some_iff.mp (of_decide_eq_true hparked)
  exact ⟨w, of_decide_eq_true hparked,
    hdep ▸ (no_lost_wakeup (reach_of_run_of_forall hok hw)).1 hget⟩

/-- A dependent that throws a value with no string conversion ends the loop that released it, and
the next one is parked under an id that has succeeded, with nothing left to wake it. -/
theorem wakeup_lost_of_bare_error : ∃ w : State String × List (Output String),
    Reach (logged (step ⟨30000, true⟩)) (fun _ i => i.2 ≠ .dispose) (start, []) w ∧
      (w.1.pending.get? "second").map (·.dependsOn) = some "order" ∧
      ¬ Awaited w "second" "order" := by
  have hok : ∀ e ∈ releaseRun .bare, ∀ _ : State String × List (Output String),
      e.2 ≠ .dispose := by simp [releaseRun]
  have hrun : (run (logged (step ⟨30000, true⟩)) anyStep (start, []) (releaseRun .bare)).any
      fun w => (w.1.pending.get? "second").map (·.dependsOn) = some "order" ∧
        ¬ Awaited w "second" "order" := by decide +kernel
  obtain ⟨w, hw, hlost⟩ := (Option.any_eq_true _ _).mp hrun
  exact ⟨w, reach_of_run_of_forall hok hw, of_decide_eq_true hlost⟩

end SequentialProcessor
end RabbitMQ
