import RabbitMQ.Lib.Transition
import Mathlib.Data.List.Nodup
import Mathlib.Data.List.Range

/-! A call of `publishBatch`, from its first attempt on.

The retry policy runs the operation one attempt at a time, and may give up before its budget is spent:
the circuit breaker refuses an attempt, or an error is not retryable. The publishes of an attempt
settle in any order. -/

namespace RabbitMQ
namespace PublishBatch

open Transition

/-- `Math.max(1, options.maxRetries ?? 3)` -/
def attempts (maxRetries : Option Int) : Nat := (max 1 (maxRetries.getD 3)).toNat

/-- How the publish of a message ends. -/
inductive Outcome where
  | confirmed
  | refused
  /-- confirmed, after the broker has returned it -/
  | returned
  deriving DecidableEq

/-- `publishRoutable` resolves. -/
def Outcome.succeeds (mandatory : Bool) : Outcome → Bool
  | .confirmed => true
  | .refused => false
  | .returned => !mandatory

inductive Stage where
  /-- the retry policy is about to run the operation, or to give up -/
  | waiting
  /-- `await this.getChannel()` -/
  | acquiring
  /-- `await Promise.all(messages.map(message => this.codec.encode(message)))` -/
  | encoding
  /-- `await Promise.allSettled(attempts)`, with these messages to settle -/
  | publishing (pending : List Nat) (failed : Bool)
  | resolved
  | rejected
  deriving DecidableEq

structure State where
  /-- The number of the attempt that runs, or ran last. -/
  attempt : Nat
  stage : Stage
  /-- `prepared` is there. -/
  prepared : Bool
  /-- `unconfirmed`, as the indices of the messages. -/
  unconfirmed : List Nat
  /-- Every publish on a channel, as its attempt and its message. -/
  published : List (Nat × Nat)
  /-- Every publish that succeeded. -/
  succeeded : List (Nat × Nat)

/-- A batch of `n` messages that has passed `preflight`. -/
def start (n : Nat) : State := ⟨0, .waiting, false, List.range n, [], []⟩

/-- The messages that the broker has not confirmed are published. -/
def State.publish (s : State) : State :=
  { s with
    stage := .publishing s.unconfirmed false
    published := s.published ++ s.unconfirmed.map (s.attempt, ·) }

def State.settle (s : State) (pending : List Nat) (failed : Bool) (i : Nat) (success : Bool) : State :=
  if success then
    { s with
      stage := .publishing (pending.erase i) failed
      unconfirmed := s.unconfirmed.erase i
      succeeded := s.succeeded ++ [(s.attempt, i)] }
  else { s with stage := .publishing (pending.erase i) true }

inductive Event where
  | attempts
  /-- the retry policy gives up -/
  | givesUp
  | acquired
  | unavailable
  | encoded
  | unencodable
  | settles (i : Nat) (outcome : Outcome)
  /-- every publish of the attempt has settled -/
  | allSettled
  deriving DecidableEq

def step (mandatory : Bool) (limit : Nat) (s : State) : Event → Option State
  | .attempts =>
    match s.stage with
    | .waiting =>
      if s.attempt < limit then some { s with attempt := s.attempt + 1, stage := .acquiring } else none
    | _ => none
  | .givesUp =>
    match s.stage with
    | .waiting => some { s with stage := .rejected }
    | _ => none
  | .acquired =>
    match s.stage with
    | .acquiring => some (if s.prepared then s.publish else { s with stage := .encoding })
    | _ => none
  | .unavailable =>
    match s.stage with
    | .acquiring => some { s with stage := .waiting }
    | _ => none
  | .encoded =>
    match s.stage with
    | .encoding => some { s with prepared := true }.publish
    | _ => none
  | .unencodable =>
    match s.stage with
    | .encoding => some { s with stage := .waiting }
    | _ => none
  | .settles i outcome =>
    match s.stage with
    | .publishing pending failed =>
      if i ∈ pending then some (s.settle pending failed i (outcome.succeeds mandatory)) else none
    | _ => none
  | .allSettled =>
    match s.stage with
    | .publishing [] failed => some { s with stage := if failed then .waiting else .resolved }
    | _ => none

/-- What a step can be, with the code it runs. -/
inductive Steps (mandatory : Bool) (limit : Nat) (s : State) : Event → State → Prop
  | attempts (hstage : s.stage = .waiting) (hlimit : s.attempt < limit) :
      Steps mandatory limit s .attempts { s with attempt := s.attempt + 1, stage := .acquiring }
  | givesUp (hstage : s.stage = .waiting) :
      Steps mandatory limit s .givesUp { s with stage := .rejected }
  | acquired (hstage : s.stage = .acquiring) : Steps mandatory limit s .acquired s.publish
  | encodes (hstage : s.stage = .acquiring) :
      Steps mandatory limit s .acquired { s with stage := .encoding }
  | fails {event} (hstage : s.stage = .acquiring ∨ s.stage = .encoding) :
      Steps mandatory limit s event { s with stage := .waiting }
  | encoded (hstage : s.stage = .encoding) :
      Steps mandatory limit s .encoded (State.publish { s with prepared := true })
  | settles {i outcome pending failed} (hstage : s.stage = .publishing pending failed)
      (hi : i ∈ pending) :
      Steps mandatory limit s (.settles i outcome)
        (s.settle pending failed i (outcome.succeeds mandatory))
  | failed (hstage : s.stage = .publishing [] true) :
      Steps mandatory limit s .allSettled { s with stage := .waiting }
  | resolves (hstage : s.stage = .publishing [] false) :
      Steps mandatory limit s .allSettled { s with stage := .resolved }

variable {mandatory : Bool} {n limit : Nat} {s t : State} {event : Event}

theorem step_cases (hs : step mandatory limit s event = some t) :
    Steps mandatory limit s event t := by
  cases event with
  | attempts =>
    simp only [step] at hs
    split at hs
    · split at hs
      · cases hs; exact .attempts ‹_› ‹_›
      · cases hs
    · cases hs
  | givesUp =>
    simp only [step] at hs
    split at hs
    · cases hs; exact .givesUp ‹_›
    · cases hs
  | acquired =>
    simp only [step] at hs
    split at hs
    · cases hs
      split
      · exact .acquired ‹_›
      · exact .encodes ‹_›
    · cases hs
  | unavailable =>
    simp only [step] at hs
    split at hs
    · cases hs; exact .fails (.inl ‹_›)
    · cases hs
  | encoded =>
    simp only [step] at hs
    split at hs
    · cases hs; exact .encoded ‹_›
    · cases hs
  | unencodable =>
    simp only [step] at hs
    split at hs
    · cases hs; exact .fails (.inr ‹_›)
    · cases hs
  | settles i outcome =>
    simp only [step] at hs
    split at hs
    · split at hs
      · cases hs; exact .settles ‹_› ‹_›
      · cases hs
    · cases hs
  | allSettled =>
    simp only [step] at hs
    split at hs
    · next failed hstage =>
      cases hs
      cases failed with
      | true => exact .failed hstage
      | false => exact .resolves hstage
    · cases hs

/-! ## What an attempt publishes -/

/-- The messages that an attempt has published, in order. -/
def State.publishedIn (s : State) (a : Nat) : List Nat :=
  (s.published.filter fun p => p.1 = a).map Prod.snd

/-- The message has succeeded before an attempt. -/
def State.succeededBefore (s : State) (a i : Nat) : Prop := ∃ b < a, (b, i) ∈ s.succeeded

/-- The attempt `a` has published every message that had not succeeded before, once. -/
def State.Fair (s : State) (n a : Nat) : Prop :=
  (s.publishedIn a).Nodup ∧ ∀ i, i ∈ s.publishedIn a ↔ i < n ∧ ¬ s.succeededBefore a i

/-- How far a call is, against what it has published. -/
structure Sound (limit n : Nat) (s : State) : Prop where
  bound : s.attempt ≤ limit
  nodup : s.unconfirmed.Nodup
  unconfirmed : ∀ i, i ∈ s.unconfirmed ↔ i < n ∧ ∀ a, (a, i) ∉ s.succeeded
  once : (s.succeeded.map Prod.snd).Nodup
  known : ∀ a i, (a, i) ∈ s.succeeded → i < n ∧ a ≤ s.attempt
  attempted : ∀ a i, (a, i) ∈ s.published → a ≤ s.attempt
  fair : ∀ a, s.publishedIn a ≠ [] → s.Fair n a
  /-- Before it publishes, the attempt that runs has published nothing, and nothing has succeeded in
  it. -/
  fresh : s.stage = .acquiring ∨ s.stage = .encoding →
    s.publishedIn s.attempt = [] ∧ ∀ i, (s.attempt, i) ∉ s.succeeded
  publishing : ∀ pending failed, s.stage = .publishing pending failed →
    (∀ i ∈ pending, i ∈ s.unconfirmed) ∧ pending.Nodup ∧
      ((∃ i ∈ s.unconfirmed, i ∉ pending) ↔ failed = true)
  resolved : s.stage = .resolved → s.unconfirmed = []
  unsettled : (∀ pending failed, s.stage ≠ .publishing pending failed) → s.stage ≠ .resolved →
    s.unconfirmed ≠ []

theorem sound_start (hn : 0 < n) : Sound limit n (start n) where
  bound := Nat.zero_le _
  nodup := List.nodup_range
  unconfirmed i := by
    rw [start, List.mem_range]
    exact ⟨fun hi => ⟨hi, fun _ => List.not_mem_nil⟩, And.left⟩
  once := List.nodup_nil
  known a i hi := by cases hi
  attempted a i hi := by cases hi
  fair a ha := absurd rfl ha
  fresh hstage := by rcases hstage with h | h <;> cases h
  publishing pending failed h := by cases h
  resolved h := by cases h
  unsettled _ _ h := by
    have hlength := congrArg List.length h
    rw [start, List.length_range, List.length_nil] at hlength
    omega

/-- Another stage, with the lists as they are. -/
theorem Sound.stage (h : Sound limit n s) {stage : Stage}
    (hfresh : stage = .acquiring ∨ stage = .encoding → s.stage = .acquiring ∨ s.stage = .encoding)
    (hstage : ∀ pending failed, stage ≠ .publishing pending failed)
    (hresolved : stage = .resolved → s.unconfirmed = [])
    (hunsettled : stage ≠ .resolved → s.unconfirmed ≠ []) : Sound limit n { s with stage } where
  bound := h.bound
  nodup := h.nodup
  unconfirmed := h.unconfirmed
  once := h.once
  known := h.known
  attempted := h.attempted
  fair := h.fair
  fresh hs := h.fresh (hfresh hs)
  publishing pending failed hs := absurd hs (hstage pending failed)
  resolved := hresolved
  unsettled _ := hunsettled

theorem Sound.attempts (h : Sound limit n s) (hstage : s.stage = .waiting)
    (hlimit : s.attempt < limit) :
    Sound limit n { s with attempt := s.attempt + 1, stage := .acquiring } where
  bound := hlimit
  nodup := h.nodup
  unconfirmed := h.unconfirmed
  once := h.once
  known a i hi := ⟨(h.known a i hi).1, Nat.le_succ_of_le (h.known a i hi).2⟩
  attempted a i hi := Nat.le_succ_of_le (h.attempted a i hi)
  fair := h.fair
  fresh _ := by
    constructor
    · refine List.map_eq_nil_iff.mpr (List.filter_eq_nil_iff.mpr fun p hp heq => ?_)
      have hle := h.attempted p.1 p.2 hp
      rw [of_decide_eq_true heq] at hle
      exact Nat.not_succ_le_self _ hle
    · intro i hi
      exact Nat.not_succ_le_self _ (h.known _ i hi).2
  publishing pending failed hs := by cases hs
  resolved hs := by cases hs
  unsettled _ _ := h.unsettled (by rw [hstage]; nofun) (by rw [hstage]; nofun)

theorem publishedIn_publish (a : Nat) : s.publish.publishedIn a =
    s.publishedIn a ++ if s.attempt = a then s.unconfirmed else [] := by
  rw [State.publishedIn, State.publish, List.filter_append, List.map_append, ← State.publishedIn,
    List.filter_map, List.map_map]
  congr 1
  split
  · next heq =>
    have hall : s.unconfirmed.filter ((fun p : Nat × Nat => decide (p.1 = a)) ∘ (s.attempt, ·)) =
        s.unconfirmed := List.filter_eq_self.mpr fun i _ => decide_eq_true heq
    rw [hall]
    exact List.map_id _
  · next hne =>
    have hnone : s.unconfirmed.filter ((fun p : Nat × Nat => decide (p.1 = a)) ∘ (s.attempt, ·)) =
        [] := List.filter_eq_nil_iff.mpr fun i _ heq => hne (of_decide_eq_true heq)
    rw [hnone, List.map_nil]

/-- An attempt that reaches the channel. -/
theorem Sound.publish (h : Sound limit n s) (hstage : s.stage = .acquiring ∨ s.stage = .encoding) :
    Sound limit n s.publish := by
  obtain ⟨hempty, hnone⟩ := h.fresh hstage
  refine ⟨h.bound, h.nodup, h.unconfirmed, h.once, h.known, fun a i hi => ?_, fun a ha => ?_,
    fun hs => ?_, fun pending failed hs => ?_, nofun, fun hs => absurd rfl (hs _ _)⟩
  · rcases List.mem_append.mp hi with hi | hi
    · exact h.attempted a i hi
    · obtain ⟨j, _, heq⟩ := List.mem_map.mp hi
      exact Nat.le_of_eq (Prod.mk.inj heq).1.symm
  · rw [State.Fair]
    rw [publishedIn_publish] at ha ⊢
    rcases eq_or_ne s.attempt a with rfl | hne
    · rw [if_pos rfl, hempty, List.nil_append]
      refine ⟨h.nodup, fun i => ?_⟩
      rw [h.unconfirmed i]
      refine and_congr_right fun _ => ⟨fun hnot ⟨b, _, hb⟩ => hnot b hb, fun hnot a ha => ?_⟩
      rcases Nat.lt_or_eq_of_le (h.known a i ha).2 with hlt | rfl
      · exact hnot ⟨a, hlt, ha⟩
      · exact hnone i ha
    · rw [if_neg hne, List.append_nil] at ha ⊢
      exact h.fair a ha
  · rcases hs with hs | hs <;> cases hs
  · cases hs
    refine ⟨fun _ hi => hi, h.nodup, ⟨fun ⟨i, hi, hnot⟩ => absurd hi hnot, nofun⟩⟩

theorem succeededBefore_append {a i j : Nat} (hle : a ≤ s.attempt) :
    State.succeededBefore { s with succeeded := s.succeeded ++ [(s.attempt, j)] } a i ↔
      s.succeededBefore a i := by
  constructor
  · rintro ⟨b, hlt, hb⟩
    rcases List.mem_append.mp hb with hb | hb
    · exact ⟨b, hlt, hb⟩
    · cases List.mem_singleton.mp hb
      exact absurd hlt (Nat.not_lt.mpr hle)
  · rintro ⟨b, hlt, hb⟩
    exact ⟨b, hlt, List.mem_append_left _ hb⟩

theorem Sound.settle (h : Sound limit n s) {pending : List Nat} {failed : Bool} {i : Nat}
    (hstage : s.stage = .publishing pending failed) (hi : i ∈ pending) (success : Bool) :
    Sound limit n (s.settle pending failed i success) := by
  obtain ⟨hsub, hpending, hfailed⟩ := h.publishing pending failed hstage
  have hopen := (h.unconfirmed i).mp (hsub i hi)
  cases success with
  | true =>
    refine ⟨h.bound, h.nodup.erase i, fun j => ?_, ?_, fun a j hj => ?_, h.attempted,
      fun a ha => ?_, fun hs => ?_, fun pending' failed' hs => ?_, nofun,
      fun hs => absurd rfl (hs _ _)⟩
    · show j ∈ s.unconfirmed.erase i ↔ _
      rw [h.nodup.mem_erase_iff, h.unconfirmed j]
      constructor
      · rintro ⟨hne, hlt, hnot⟩
        refine ⟨hlt, fun a ha => ?_⟩
        rcases List.mem_append.mp ha with ha | ha
        · exact hnot a ha
        · exact hne (Prod.mk.inj (List.mem_singleton.mp ha)).2
      · rintro ⟨hlt, hnot⟩
        refine ⟨?_, hlt, fun a ha => hnot a (List.mem_append_left _ ha)⟩
        rintro rfl
        exact hnot s.attempt (List.mem_append_right _ (List.mem_singleton_self _))
    · show ((s.succeeded ++ [(s.attempt, i)]).map Prod.snd).Nodup
      rw [List.map_append, List.map_singleton]
      refine List.nodup_append.mpr ⟨h.once, List.nodup_singleton _, ?_⟩
      intro j hj k hk heq
      rw [List.mem_singleton.mp hk] at heq
      subst heq
      obtain ⟨⟨a, j⟩, ha, rfl⟩ := List.mem_map.mp hj
      exact hopen.2 a ha
    · rcases List.mem_append.mp hj with hj | hj
      · exact h.known a j hj
      · cases List.mem_singleton.mp hj
        exact ⟨hopen.1, Nat.le_refl _⟩
    · have hle : a ≤ s.attempt := by
        obtain ⟨j, hj⟩ := List.exists_mem_of_ne_nil _ ha
        obtain ⟨⟨b, j⟩, hb, rfl⟩ := List.mem_map.mp hj
        obtain ⟨hb, heq⟩ := List.mem_filter.mp hb
        exact of_decide_eq_true heq ▸ h.attempted b j hb
      obtain ⟨hnodup, hmem⟩ := h.fair a ha
      refine ⟨hnodup, fun j => (hmem j).trans (and_congr_right fun _ => not_congr ?_)⟩
      exact (succeededBefore_append hle).symm
    · rcases hs with hs | hs <;> cases hs
    · cases hs
      refine ⟨fun j hj => ?_, hpending.erase i, ?_⟩
      · obtain ⟨hne, hj⟩ := hpending.mem_erase_iff.mp hj
        exact h.nodup.mem_erase_iff.mpr ⟨hne, hsub j hj⟩
      · rw [← hfailed]
        constructor
        · rintro ⟨j, hj, hnot⟩
          obtain ⟨hne, hj⟩ := h.nodup.mem_erase_iff.mp hj
          exact ⟨j, hj, fun hj' => hnot (hpending.mem_erase_iff.mpr ⟨hne, hj'⟩)⟩
        · rintro ⟨j, hj, hnot⟩
          refine ⟨j, h.nodup.mem_erase_iff.mpr ⟨?_, hj⟩, fun hj' => hnot (List.mem_of_mem_erase hj')⟩
          rintro rfl
          exact hnot hi
  | false =>
    refine ⟨h.bound, h.nodup, h.unconfirmed, h.once, h.known, h.attempted, h.fair, fun hs => ?_,
      fun pending' failed' hs => ?_, nofun, fun hs => absurd rfl (hs _ _)⟩
    · rcases hs with hs | hs <;> cases hs
    · cases hs
      refine ⟨fun j hj => hsub j (List.mem_of_mem_erase hj), hpending.erase i, ?_⟩
      exact ⟨fun _ => rfl, fun _ => ⟨i, hsub i hi, hpending.not_mem_erase⟩⟩

theorem Steps.sound (H : Steps mandatory limit s event t) (h : Sound limit n s) :
    Sound limit n t := by
  have hopen : s.stage = .waiting ∨ s.stage = .acquiring ∨ s.stage = .encoding →
      s.unconfirmed ≠ [] := by
    rintro (hs | hs | hs) <;> exact h.unsettled (by rw [hs]; nofun) (by rw [hs]; nofun)
  cases H with
  | attempts hstage hlimit => exact h.attempts hstage hlimit
  | givesUp hstage =>
    exact h.stage (by rintro (hs | hs) <;> cases hs) nofun nofun fun _ => hopen (.inl hstage)
  | acquired hstage => exact h.publish (.inl hstage)
  | encodes hstage =>
    exact h.stage (fun _ => .inl hstage) nofun nofun fun _ => hopen (.inr (.inl hstage))
  | fails hstage =>
    exact h.stage (by rintro (hs | hs) <;> cases hs) nofun nofun fun _ => hopen (.inr hstage)
  | encoded hstage =>
    have hprepared : Sound limit n { s with prepared := true } :=
      ⟨h.bound, h.nodup, h.unconfirmed, h.once, h.known, h.attempted, h.fair, h.fresh,
        h.publishing, h.resolved, h.unsettled⟩
    exact hprepared.publish (.inr hstage)
  | settles hstage hi => exact h.settle hstage hi _
  | failed hstage =>
    obtain ⟨i, hi, _⟩ := (h.publishing _ _ hstage).2.2.mpr rfl
    exact h.stage (by rintro (hs | hs) <;> cases hs) nofun nofun
      fun _ hnil => by rw [hnil] at hi; cases hi
  | resolves hstage =>
    refine h.stage (by rintro (hs | hs) <;> cases hs) nofun (fun _ => ?_) (absurd rfl)
    refine List.eq_nil_iff_forall_not_mem.mpr fun i hi => ?_
    cases (h.publishing _ _ hstage).2.2.mp ⟨i, hi, List.not_mem_nil⟩

theorem sound (hn : 0 < n) (hr : Reach (step mandatory limit) anyStep (start n) s) :
    Sound limit n s :=
  hr.invariant (sound_start hn) fun h _ hs => (step_cases hs).sound h

/-- A message that succeeded is not published again, an attempt that reaches the channel publishes
what has not succeeded, once, and the call resolves when every message has succeeded once. -/
theorem batch_publishes_once (maxRetries : Option Int) (hn : 0 < n)
    (hr : Reach (step mandatory (attempts maxRetries)) anyStep (start n) s) :
    (∀ a i, (a, i) ∈ s.succeeded → ∀ b, (b, i) ∈ s.published → b ≤ a) ∧
    (∀ a, s.publishedIn a ≠ [] → s.Fair n a) ∧ s.attempt ≤ attempts maxRetries ∧
    (s.stage = .resolved → ∀ i < n, (s.succeeded.map Prod.snd).count i = 1) ∧
    ((∀ i < n, (s.succeeded.map Prod.snd).count i = 1) →
      s.stage = .resolved ∨ s.stage = .publishing [] false) := by
  have h := sound hn hr
  have hcount : ∀ i, i ∉ s.unconfirmed → i < n → (s.succeeded.map Prod.snd).count i = 1 := by
    intro i hi hlt
    refine List.count_eq_one_of_mem h.once ?_
    by_contra hnot
    exact hi ((h.unconfirmed i).mpr ⟨hlt, fun a ha => hnot (List.mem_map.mpr ⟨_, ha, rfl⟩)⟩)
  refine ⟨fun a i ha b hb => Nat.not_lt.mp fun hlt => ?_, h.fair, h.bound, fun hs i hi => ?_,
    fun hall => ?_⟩
  · have hmem : i ∈ s.publishedIn b :=
      List.mem_map.mpr ⟨(b, i), List.mem_filter.mpr ⟨hb, decide_eq_true rfl⟩, rfl⟩
    exact ((h.fair b (List.ne_nil_of_mem hmem)).2 i).mp hmem |>.2 ⟨a, hlt, ha⟩
  · refine hcount i ?_ hi
    rw [h.resolved hs]
    exact List.not_mem_nil
  · have hnil : s.unconfirmed = [] := by
      refine List.eq_nil_iff_forall_not_mem.mpr fun i hi => ?_
      obtain ⟨hlt, hnot⟩ := (h.unconfirmed i).mp hi
      have hmem : i ∈ s.succeeded.map Prod.snd :=
        List.count_pos_iff.mp (by rw [hall i hlt]; exact Nat.one_pos)
      obtain ⟨⟨a, j⟩, ha, rfl⟩ := List.mem_map.mp hmem
      exact hnot a ha
    cases hstage : s.stage with
    | publishing pending failed =>
      obtain ⟨hsub, _, hfailed⟩ := h.publishing pending failed hstage
      have hpending : pending = [] := by
        refine List.eq_nil_iff_forall_not_mem.mpr fun i hi => ?_
        have hi := hsub i hi
        rw [hnil] at hi
        cases hi
      cases failed with
      | false => exact .inr (by rw [hpending])
      | true =>
        obtain ⟨i, hi, _⟩ := hfailed.mpr rfl
        rw [hnil] at hi
        cases hi
    | resolved => exact .inl rfl
    | _ => exact absurd hnil (h.unsettled (by rw [hstage]; nofun) (by rw [hstage]; nofun))

/-- The second of three messages is refused once: the retry publishes it alone. -/
theorem batch_publishes_once_run : ∃ s : State,
    s.published = [(1, 0), (1, 1), (1, 2), (2, 1)] ∧ s.stage = .resolved ∧
    (∀ a i, (a, i) ∈ s.succeeded → ∀ b, (b, i) ∈ s.published → b ≤ a) ∧
    (∀ a, s.publishedIn a ≠ [] → s.Fair 3 a) ∧ s.attempt ≤ attempts (some 2) ∧
    (s.stage = .resolved → ∀ i < 3, (s.succeeded.map Prod.snd).count i = 1) ∧
    ((∀ i < 3, (s.succeeded.map Prod.snd).count i = 1) →
      s.stage = .resolved ∨ s.stage = .publishing [] false) := by
  have hrun : (run (step true (attempts (some 2))) anyStep (start 3) [.attempts, .acquired, .encoded,
      .settles 2 .confirmed, .settles 1 .refused, .settles 0 .confirmed, .allSettled, .attempts,
      .acquired, .settles 1 .confirmed, .allSettled]).any fun s =>
        decide (s.published = [(1, 0), (1, 1), (1, 2), (2, 1)] ∧ s.stage = .resolved) := by
    decide +kernel
  obtain ⟨s, hs, h⟩ := (Option.any_eq_true _ _).mp hrun
  obtain ⟨hpublished, hresolved⟩ := of_decide_eq_true h
  exact ⟨s, hpublished, hresolved,
    batch_publishes_once (some 2) (Nat.succ_pos 2) (reach_of_run hs)⟩

end PublishBatch
end RabbitMQ
