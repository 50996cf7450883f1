import Mathlib.Logic.Relation
import RabbitMQ.Consumers.SequentialProcessor.Wakeup

/-! Waiting comes to an end. A delivery is parked behind one that came before it, so the deliveries
that wait for each other form no cycle: each waits, in the end, for one that is running, or that is
about to be taken by a loop, or that failed. -/

namespace RabbitMQ
namespace SequentialProcessor

open Transition

variable {α : Type} [DecidableEq α]

/-- The delivery parked as `id` waits for `dependsOn`. -/
def State.WaitsFor (s : State α) (id dependsOn : α) : Prop :=
  ∃ data, s.pending.get? id = some data ∧ data.dependsOn = dependsOn

/-- The ids of the deliveries, by tag. -/
def Identified (ids : Nat → Option α) (input : Hooks α × Event α) : Prop :=
  ∀ message, input.2 = .handle message → message.messageId = ids message.tag

/-- `handled` has the newest first. -/
structure Ordered (ids : Nat → Option α) (s : State α) : Prop where
  entered : ∀ {id}, s.Tracks id → ∃ t ∈ s.handled, ids t = some id
  parked : ∀ {id data}, s.pending.get? id = some data →
    data.message.messageId = ids data.message.tag
  older : ∀ {id data}, s.pending.get? id = some data → ∃ t ∈ s.handled,
    ids t = some data.dependsOn ∧ s.handled.idxOf data.message.tag < s.handled.idxOf t

/-- What is in `processing` has a callback that runs. -/
def Busy (s : State α) : Prop :=
  ∀ id ∈ s.processing, ∃ root stack, s.calls.get? root = some stack ∧
    ∃ frame ∈ stack, frame.stage = .callback ∧ frame.message.messageId = some id

variable {c : Config} {h : Hooks α} {s s' : State α} {log out : List (Output α)}
  {ids : Nat → Option α} {message : Message α} {root : Nat}

/-! ## The order of arrival -/

theorem Ordered.mem_handled (ho : Ordered ids s) {id : α} {data : Parked α}
    (hp : s.pending.get? id = some data) : data.message.tag ∈ s.handled := by
  obtain ⟨t, hmem, -, hlt⟩ := ho.older hp
  exact List.idxOf_lt_length_iff.mp (Nat.lt_trans hlt (List.idxOf_lt_length_of_mem hmem))

/-- Entries that leave change nothing for the others. -/
theorem Ordered.shrink (ho : Ordered ids s) (hproc : ∀ id ∈ s'.processing, id ∈ s.processing)
    (hpend : ∀ {id data}, s'.pending.get? id = some data → s.pending.get? id = some data)
    (hhandled : s'.handled = s.handled) : Ordered ids s' := by
  refine ⟨fun {id} ht => ?_, fun hp => ho.parked (hpend hp), fun hp => hhandled ▸ ho.older (hpend hp)⟩
  rw [hhandled]
  apply ho.entered
  rcases ht with hm | hm
  · exact .inl (hproc id hm)
  · obtain ⟨data, hp⟩ := OrderedMap.mem_iff.mp hm
    exact .inr (OrderedMap.mem_of_get? (hpend hp))

/-- A delivery comes in. -/
theorem Ordered.arrive (ho : Ordered ids s) {tag : Nat} (hfresh : tag ∉ s.handled) :
    Ordered ids { s with handled := tag :: s.handled } := by
  refine ⟨fun ht => ?_, ho.parked, fun hp => ?_⟩
  · obtain ⟨t, hmem, hid⟩ := ho.entered ht
    exact ⟨t, List.mem_cons_of_mem _ hmem, hid⟩
  · obtain ⟨t, hmem, hid, hlt⟩ := ho.older hp
    refine ⟨t, List.mem_cons_of_mem _ hmem, hid, ?_⟩
    dsimp only
    rw [List.idxOf_cons_ne _ (ne_of_mem_of_not_mem (ho.mem_handled hp) hfresh).symm,
      List.idxOf_cons_ne _ (ne_of_mem_of_not_mem hmem hfresh).symm]
    exact Nat.succ_lt_succ hlt

/-- A call of `handle`, for a delivery that is newer than what it may have to wait for. -/
theorem Handles.ordered {r : State α × List (Output α) × Progress α} (H : Handles h s message r)
    (ho : Ordered ids s) (hid : message.messageId = ids message.tag) (hmem : message.tag ∈ s.handled)
    (hnewer : ∀ {d}, s.unresolved message.dependsOn = some d → ∃ t ∈ s.handled,
      ids t = some d ∧ s.handled.idxOf message.tag < s.handled.idxOf t) : Ordered ids r.1 := by
  cases H with
  | duplicate hid' hp => exact ho
  | @parks messageId dependsOn hid' hd hp =>
    have hget : ∀ id, (s.park messageId dependsOn message).pending.get? id =
        if id = messageId then some ⟨message, dependsOn, s.now⟩ else s.pending.get? id :=
      fun id => OrderedMap.get?_set _ _ _ _
    refine ⟨fun {id} ht => ?_, fun {id data} hp' => ?_, fun {id data} hp' => ?_⟩
    · rcases ht with ht | ht
      · exact ho.entered (.inl ht)
      · rcases OrderedMap.mem_set.mp ht with rfl | ht
        · exact ⟨message.tag, hmem, hid ▸ hid'⟩
        · exact ho.entered (.inr ht)
    · rw [hget] at hp'
      split at hp'
      · cases hp'
        exact hid
      · exact ho.parked hp'
    · rw [hget] at hp'
      split at hp'
      · cases hp'
        exact hnewer hd
      · exact ho.older hp'
  | runs hfree =>
    refine ⟨fun {id} ht => ?_, ho.parked, ho.older⟩
    rcases ht with ht | ht
    · simp only [State.process] at ht
      cases hm : message.messageId with
      | none =>
        rw [hm] at ht
        exact ho.entered (.inl ht)
      | some messageId =>
        rw [hm] at ht
        rcases OrderedMap.mem_set.mp ht with rfl | ht
        · exact ⟨message.tag, hmem, hid ▸ hm⟩
        · exact ho.entered (.inl ht)
    · exact ho.entered (.inr ht)

variable [ToString α]

theorem Ordered.sweep (ho : Ordered ids s) : Ordered ids (cleanup c h s).1 := by
  have hfirst : Ordered ids (sweepProcessing c s).1 :=
    ho.shrink (fun id hm => by
      obtain ⟨t, ht⟩ := OrderedMap.mem_iff.mp hm
      exact OrderedMap.mem_of_get? (OrderedMap.get?_filter.mp ht).1) (fun hp => hp) rfl
  refine sweepPending_keeps (P := Ordered ids) (fun {s id data} hs _ => ?_) _ hfirst
    (fun e he => OrderedMap.get?_eq_some_iff.mpr he) s.pending.nodup
  have hframe := removePending_frame s id data.dependsOn
  have hproc : (s.removePending id data.dependsOn).processing = s.processing :=
    (congrArg State.processing hframe :)
  refine hs.shrink (fun id' hm => hproc ▸ hm) (fun {id' data'} hp => ?_)
    (congrArg State.handled hframe :)
  · rw [removePending_pending, OrderedMap.get?_erase] at hp
    split at hp
    · cases hp
    · exact hp

/-- What a step leaves in the order of arrival. -/
theorem Ordered.steps {event : Event α} {r : State α × List (Output α)} (ho : Ordered ids s)
    (hw : Wakeful s log s.toVisit) (hid : Identified ids (h, event)) (hs : Calm c h s event r) : Ordered ids r.1 := by
  have hnew : ∀ {message : Message α} {r}, message.tag ∉ s.handled →
      message.messageId = ids message.tag →
      Handles h { s with handled := message.tag :: s.handled } message r → Ordered ids r.1 := by
    intro message r hfresh hid H
    refine H.ordered (ho.arrive hfresh) hid List.mem_cons_self fun {d} hd => ?_
    obtain ⟨t, hmem, ht⟩ := ho.entered (unresolved_eq_some hd).2
    refine ⟨t, List.mem_cons_of_mem _ hmem, ht, ?_⟩
    dsimp only
    rw [List.idxOf_cons_self, List.idxOf_cons_ne _ (ne_of_mem_of_not_mem hmem hfresh).symm]
    exact Nat.succ_pos _
  cases hs with
  | handled hfresh H => exact hnew hfresh (hid _ rfl) H
  | started hfresh H =>
    exact (hnew hfresh (hid _ rfl) H).shrink (fun _ hm => hm) (fun hp => hp) rfl
  | @succeeds root message startTime rest hcall =>
    refine ho.shrink (fun id hm => ?_) (fun hp => hp) rfl
    cases hmessage : message.messageId with
    | none =>
      rw [hmessage] at hm
      exact hm
    | some id' =>
      rw [hmessage] at hm
      exact (OrderedMap.mem_erase.mp hm).2
  | @fails root message startTime rest error requeue hcall =>
    refine ho.shrink (fun id hm => ?_) (fun hp => hp) rfl
    cases hmessage : message.messageId with
    | none =>
      rw [hmessage] at hm
      exact hm
    | some id' =>
      rw [hmessage] at hm
      exact (OrderedMap.mem_erase.mp hm).2
  | loopEnds hcall => exact ho.shrink (fun _ hm => hm) (fun hp => hp) rfl
  | skips hcall hp => exact ho.shrink (fun _ hm => hm) (fun hp => hp) rfl
  | @releases root message startTime pendingId remaining rest data s₁ out progress hcall hp H =>
    have hleft : Ordered ids { s with pending := s.pending.erase pendingId } :=
      ho.shrink (fun _ hm => hm) (fun hp' => (by
        rw [OrderedMap.get?_erase] at hp'
        split at hp'
        · cases hp'
        · exact hp')) rfl
    refine (H.ordered hleft (ho.parked hp) (ho.mem_handled hp) fun {d} hd => ?_).shrink
      (fun _ hm => hm) (fun hp => hp) rfl
    -- it may only wait again for what it was parked behind
    have hdep := (hw.stored hp).2.symm.trans (unresolved_eq_some hd).1
    cases hdep
    exact ho.older hp
  | cleanup => exact ho.sweep
  | tick => exact ho.shrink (fun _ hm => hm) (fun hp => hp) rfl

/-! ## What is running -/

omit [DecidableEq α] [ToString α] in
/-- The stack `new` takes the place of the one of `root`. -/
theorem Busy.move (hb : Busy s) {old : List (Frame α)} (hcall : s.calls.get? root = some old)
    (new : List (Frame α)) (hcalls : s'.calls = resumed s.calls root new)
    (hproc : ∀ id ∈ s'.processing,
      (∃ frame ∈ new, frame.stage = .callback ∧ frame.message.messageId = some id) ∨
      id ∈ s.processing ∧ ∀ frame ∈ old, frame.stage = .callback →
        frame.message.messageId = some id → frame ∈ new) : Busy s' := by
  intro id hm
  have hin : ∀ frame ∈ new, frame.stage = .callback → frame.message.messageId = some id →
      ∃ root stack, s'.calls.get? root = some stack ∧
        ∃ frame ∈ stack, frame.stage = .callback ∧ frame.message.messageId = some id := by
    intro frame hframe hstage hid
    refine ⟨root, new, ?_, frame, hframe, hstage, hid⟩
    rw [hcalls, get?_resumed, if_pos rfl, if_neg]
    rw [List.isEmpty_iff]
    rintro rfl
    cases hframe
  rcases hproc id hm with ⟨frame, hframe, hstage, hid⟩ | ⟨hold, hkept⟩
  · exact hin frame hframe hstage hid
  · obtain ⟨r, stack, hstack, frame, hframe, hstage, hid⟩ := hb id hold
    by_cases hr : r = root
    · subst hr
      rw [hcall] at hstack
      cases hstack
      exact hin frame (hkept frame hframe hstage hid) hstage hid
    · refine ⟨r, stack, ?_, frame, hframe, hstage, hid⟩
      rw [hcalls, get?_resumed, if_neg hr]
      exact hstack

omit [ToString α] in
/-- What `handle` adds to `processing` is the delivery it starts. -/
theorem Handles.mem_processing {r : State α × List (Output α) × Progress α} (H : Handles h s message r)
    {id : α} (hm : id ∈ r.1.processing) : id ∈ s.processing ∨ ∃ child, r.2.2 = .running child ∧
      child.stage = .callback ∧ child.message.messageId = some id := by
  cases H with
  | duplicate hid hp => exact .inl hm
  | parks hid hd hp => exact .inl hm
  | runs hfree =>
    simp only [State.process] at hm
    cases hmessage : message.messageId with
    | none =>
      rw [hmessage] at hm
      exact .inl hm
    | some messageId =>
      rw [hmessage] at hm
      rcases OrderedMap.mem_set.mp hm with rfl | hm
      · exact .inr ⟨_, rfl, rfl, hmessage⟩
      · exact .inl hm

omit [ToString α] in
theorem mem_removeProcessing {messageId : Option α} {cause : Cause} {id : α} :
    id ∈ (s.removeProcessing messageId cause).1.processing ↔
      messageId ≠ some id ∧ id ∈ s.processing := by
  cases messageId with
  | none => simp [State.removeProcessing]
  | some id' =>
    simp only [State.removeProcessing, OrderedMap.mem_erase, ne_eq, Option.some.injEq]
    exact and_congr_left fun _ => ne_comm

omit [ToString α] in
theorem Busy.deliver (hb : Busy s) (hroots : ∀ {root stack}, s.calls.get? root = some stack →
    root ∈ s.handled) (hfresh : message.tag ∉ s.handled) : Busy (deliver h s message).1 := by
  have H := handle_cases h { s with handled := message.tag :: s.handled } message
  have hframe := H.frame
  have hstarted := @H.mem_processing
  simp only [SequentialProcessor.deliver]
  generalize handle h { s with handled := message.tag :: s.handled } message = r at *
  obtain ⟨s₁, out, progress⟩ := r
  have hcalls : s₁.calls = s.calls := (congrArg State.calls hframe :)
  have hold : ∀ id ∈ s.processing, ∃ root stack, root ≠ message.tag ∧
      s₁.calls.get? root = some stack ∧
        ∃ frame ∈ stack, frame.stage = .callback ∧ frame.message.messageId = some id := by
    intro id hm
    obtain ⟨root, stack, hstack, hframe⟩ := hb id hm
    exact ⟨root, stack, ne_of_mem_of_not_mem (hroots hstack) hfresh, hcalls ▸ hstack, hframe⟩
  cases progress with
  | resolved =>
    intro id hm
    rcases hstarted hm with hm | ⟨child, hrunning, -⟩
    · obtain ⟨root, stack, -, hstack, hframe⟩ := hold id hm
      exact ⟨root, stack, hstack, hframe⟩
    · cases hrunning
  | rejected e =>
    intro id hm
    rcases hstarted hm with hm | ⟨child, hrunning, -⟩
    · obtain ⟨root, stack, -, hstack, hframe⟩ := hold id hm
      exact ⟨root, stack, hstack, hframe⟩
    · cases hrunning
  | running child =>
    intro id hm
    rcases hstarted hm with hm | ⟨child', hrunning, hstage, hid⟩
    · obtain ⟨root, stack, hne, hstack, hframe⟩ := hold id hm
      refine ⟨root, stack, ?_, hframe⟩
      rw [OrderedMap.get?_set, if_neg hne]
      exact hstack
    · cases hrunning
      exact ⟨message.tag, [child], OrderedMap.get?_set_self .., child, List.mem_cons_self, hstage,
        hid⟩

theorem Busy.step {event : Event α} {r : State α × List (Output α)} (hb : Busy s)
    (hw : Woken (s, log)) (hok : Settles c s (h, event)) (hs : step c s (h, event) = some r) :
    Busy r.1 := by
  have hcalm : Calm c h s event r :=
    calm_cases (fun hp => (hw.wakeful.stored hp).1) hok (step_cases hs)
  cases event with
  | handle message =>
    cases step_cases hs with
    | handle hfresh => exact hb.deliver hw.roots hfresh
  | callbackResolved root =>
    cases hcalm with
    | @succeeds _ message startTime rest hcall =>
      refine hb.move hcall (_ :: rest) rfl fun id hm => .inr ?_
      obtain ⟨hne, hm⟩ := mem_removeProcessing.mp hm
      refine ⟨hm, fun frame hframe hstage hid => ?_⟩
      rcases List.mem_cons.mp hframe with rfl | hframe
      · exact absurd hid hne
      · exact List.mem_cons_of_mem _ hframe
  | callbackRejected root error =>
    cases hcalm with
    | @fails _ message startTime rest _ requeue hcall =>
      refine hb.move hcall rest rfl fun id hm => .inr ?_
      obtain ⟨hne, hm⟩ := mem_removeProcessing.mp hm
      refine ⟨hm, fun frame hframe hstage hid => ?_⟩
      rcases List.mem_cons.mp hframe with rfl | hframe
      · exact absurd hid hne
      · exact hframe
  | processDependents root =>
    -- the frame of the loop is not at its callback
    cases hcalm with
    | @loopEnds _ message startTime rest hcall =>
      refine hb.move hcall rest rfl fun id hm => .inr ⟨hm, fun frame hframe hstage hid => ?_⟩
      rcases List.mem_cons.mp hframe with rfl | hframe
      · cases hstage
      · exact hframe
    | @skips _ message startTime pendingId remaining rest hcall hp =>
      refine hb.move hcall (_ :: rest) rfl fun id hm =>
        .inr ⟨hm, fun frame hframe hstage hid => ?_⟩
      rcases List.mem_cons.mp hframe with rfl | hframe
      · cases hstage
      · exact List.mem_cons_of_mem _ hframe
    | @releases _ message startTime pendingId remaining rest data s₁ out progress hcall hp H =>
      refine hb.move hcall
        (progress.onto (⟨message, startTime, .dependents remaining⟩ :: rest)) ?_ ?_
      · cases progress <;> rfl
      · intro id hm
        rcases H.mem_processing hm with hm | ⟨child, hrunning, hstage, hid⟩
        · refine .inr ⟨hm, fun frame hframe hstage hid => ?_⟩
          have hmem : frame ∈ (⟨message, startTime, .dependents remaining⟩ : Frame α) :: rest := by
            rcases List.mem_cons.mp hframe with rfl | hframe
            · cases hstage
            · exact List.mem_cons_of_mem _ hframe
          cases progress with
          | running child => exact List.mem_cons_of_mem _ hmem
          | resolved => exact hmem
          | rejected e => exact hmem
        · cases hrunning
          exact .inl ⟨child, List.mem_cons_self, hstage, hid⟩
  | cleanup =>
    intro id hm
    have hframe := sweepPending_frame c h s.pending.entries (sweepProcessing c s).1
    have hcalls : (cleanup c h s).1.calls = s.calls := (congrArg State.calls hframe :)
    have hproc : (cleanup c h s).1.processing = (sweepProcessing c s).1.processing :=
      (congrArg State.processing hframe :)
    cases hcalm
    rw [hproc] at hm
    rw [hcalls]
    obtain ⟨t, ht⟩ := OrderedMap.mem_iff.mp hm
    exact hb id (OrderedMap.mem_of_get? (OrderedMap.get?_filter.mp ht).1)
  | dispose => exact hok.elim
  | tick elapsed =>
    cases hcalm
    exact hb

/-! ## Every run -/

/-- The steps of a run in which settling throws nothing and deliveries have these ids. -/
def Distinct (c : Config) (ids : Nat → Option α) (s : State α) (input : Hooks α × Event α) : Prop :=
  Settles c s input ∧ Identified ids input

theorem ordered_of_reach {w : State α × List (Output α)}
    (hr : Reach (logged (SequentialProcessor.step c)) (fun w => Distinct c ids w.1) (start, []) w) :
    Woken w ∧ Ordered ids w.1 ∧ Busy w.1 := by
  refine hr.invariant (I := fun w => Woken w ∧ Ordered ids w.1 ∧ Busy w.1)
    ⟨woken_start, ⟨?_, ?_, ?_⟩, ?_⟩ fun {w w' e} hinv hok hlogged => ?_
  · intro id ht
    rcases ht with ht | ht <;> cases ht
  · intro id data hp
    cases hp
  · intro id data hp
    cases hp
  · intro id hm
    cases hm
  · obtain ⟨hw, ho, hb⟩ := hinv
    obtain ⟨s', out, hs, rfl⟩ := logged_eq_some hlogged
    have hcalm := calm_cases (fun hp => (hw.wakeful.stored hp).1) hok.1 (step_cases hs)
    exact ⟨hw.steps hcalm, ho.steps (r := (s', out)) hw.wakeful hok.2 hcalm,
      hb.step (r := (s', out)) hw hok.1 hs⟩

section
omit [ToString α]
variable (ho : Ordered ids s) (hids : ∀ {t t' id}, ids t = some id → ids t' = some id → t = t')
  (hstored : ∀ {id data}, s.pending.get? id = some data → data.message.messageId = some id)
include ho hids hstored

/-- What a delivery waits for, itself or through others, came before it. -/
theorem Ordered.before {id last : α} (hwaits : Relation.TransGen s.WaitsFor id last) {t t' : Nat}
    (ht : ids t = some id) (ht' : ids t' = some last) :
    s.handled.idxOf t < s.handled.idxOf t' := by
  have hone : ∀ {id d t t'}, s.WaitsFor id d → ids t = some id → ids t' = some d →
      s.handled.idxOf t < s.handled.idxOf t' := by
    intro id d t t' hwait ht ht'
    obtain ⟨data, hp, rfl⟩ := hwait
    obtain ⟨u, -, hu, hlt⟩ := ho.older hp
    have htag : ids data.message.tag = some id := (ho.parked hp).symm.trans (hstored hp)
    rwa [hids ht htag, hids ht' hu]
  induction hwaits generalizing t' with
  | single hwait => exact hone hwait ht ht'
  | tail _ hwait ih =>
    obtain ⟨data, hp, hd⟩ := hwait
    have htag : ids data.message.tag = some _ := (ho.parked hp).symm.trans (hstored hp)
    exact Nat.lt_trans (ih htag) (hone ⟨data, hp, hd⟩ htag ht')

theorem Ordered.acyclic (id : α) : ¬ Relation.TransGen s.WaitsFor id id := by
  intro hcycle
  obtain ⟨_, ⟨data, hp, -⟩, -⟩ := Relation.TransGen.head'_iff.mp hcycle
  have htag : ids data.message.tag = some id := (ho.parked hp).symm.trans (hstored hp)
  exact Nat.lt_irrefl _ (ho.before hids hstored hcycle htag htag)

/-- A chain of waits has a last link. By induction on how many deliveries are older. -/
theorem Ordered.last_link {id : α} {data : Parked α} (hp : s.pending.get? id = some data) :
    ∃ last data', Relation.ReflTransGen s.WaitsFor id last ∧ s.pending.get? last = some data' ∧
      data'.dependsOn ∉ s.pending := by
  induction hn : s.handled.length - s.handled.idxOf data.message.tag using Nat.strongRecOn
    generalizing id data with
  | ind n ih =>
    by_cases hlast : data.dependsOn ∈ s.pending
    · obtain ⟨data', hp'⟩ := OrderedMap.mem_iff.mp hlast
      have hwait : s.WaitsFor id data.dependsOn := ⟨data, hp, rfl⟩
      have hlt := ho.before hids hstored (.single hwait)
        ((ho.parked hp).symm.trans (hstored hp)) ((ho.parked hp').symm.trans (hstored hp'))
      have hbound := List.idxOf_lt_length_of_mem (ho.mem_handled hp')
      obtain ⟨last, data'', hchain, hget, hnot⟩ := ih _ (by omega) hp' rfl
      exact ⟨last, data'', .head hwait hchain, hget, hnot⟩
    · exact ⟨id, data, .refl, hp, hlast⟩

end

/-- There is no deadlock: when each delivery has an id of its own, no delivery waits for itself,
every wait ends at a delivery that is running, that a loop is about to take or that failed, and
when nothing runs and nothing failed nothing is parked. -/
theorem no_deadlock (hids : ∀ {t t' id}, ids t = some id → ids t' = some id → t = t')
    {w : State α × List (Output α)}
    (hr : Reach (logged (SequentialProcessor.step c)) (fun w => Distinct c ids w.1) (start, []) w) :
    (∀ id, ¬ Relation.TransGen w.1.WaitsFor id id) ∧
    (∀ id ∈ w.1.pending, ∃ last, Relation.ReflTransGen w.1.WaitsFor id last ∧
      (last ∈ w.1.processing ∨ last ∈ w.1.toVisit ∨ LeftFailing w.2 last)) ∧
    (w.1.calls.keys = [] → (∀ id, ¬ LeftFailing w.2 id) → w.1.pending.keys = []) := by
  obtain ⟨hw, ho, hb⟩ := ordered_of_reach hr
  have hstored : ∀ {id data}, w.1.pending.get? id = some data → data.message.messageId = some id :=
    fun hp => (hw.wakeful.stored hp).1
  have hends : ∀ id ∈ w.1.pending, ∃ last, Relation.ReflTransGen w.1.WaitsFor id last ∧
      (last ∈ w.1.processing ∨ last ∈ w.1.toVisit ∨ LeftFailing w.2 last) := by
    intro id hm
    obtain ⟨data, hp⟩ := OrderedMap.mem_iff.mp hm
    obtain ⟨last, data', hchain, hlast, hnot⟩ := ho.last_link hids hstored hp
    rcases hw.wakeful.wakes hlast with (hrun | hpend) | hvisit | hfailed
    · exact ⟨_, hchain.tail ⟨data', hlast, rfl⟩, .inl hrun⟩
    · exact absurd hpend hnot
    · exact ⟨last, hchain, .inr (.inl hvisit)⟩
    · exact ⟨_, hchain.tail ⟨data', hlast, rfl⟩, .inr (.inr hfailed)⟩
  refine ⟨ho.acyclic hids hstored, hends, fun hidle hfine => ?_⟩
  have hnone : w.1.calls = .empty := OrderedMap.eq_empty_of_entries (List.map_eq_nil_iff.mp hidle)
  refine List.eq_nil_iff_forall_not_mem.mpr fun id hm => ?_
  obtain ⟨last, -, hrun | hvisit | hfailed⟩ := hends id hm
  · obtain ⟨root, stack, hcall, -⟩ := hb last hrun
    rw [hnone] at hcall
    cases hcall
  · rw [State.toVisit, hnone] at hvisit
    cases hvisit
  · exact hfine last hfailed

/-- The ids of three deliveries. -/
def lineIds : Nat → Option String
  | 1 => some "order"
  | 2 => some "payment"
  | 3 => some "receipt"
  | _ => none

/-- Each waits for the one before. -/
def lineRun : List (Hooks String × Event String) :=
  [.handle { tag := 1, messageId := some "order" },
    .handle { tag := 2, messageId := some "payment", dependsOn := some "order" },
    .handle { tag := 3, messageId := some "receipt", dependsOn := some "payment" }].map
      (Hooks.returning false, ·)

theorem lineIds_injective {t t' : Nat} {id : String} (ht : lineIds t = some id)
    (ht' : lineIds t' = some id) : t = t' := by
  unfold lineIds at ht ht'
  grind

theorem no_deadlock_line : ∃ w : State String × List (Output String),
    "receipt" ∈ w.1.pending ∧ ∃ last, Relation.ReflTransGen w.1.WaitsFor "receipt" last ∧
      (last ∈ w.1.processing ∨ last ∈ w.1.toVisit ∨ LeftFailing w.2 last) := by
  have hok : ∀ e ∈ lineRun, ∀ w : State String × List (Output String),
      Distinct ⟨30000, true⟩ lineIds w.1 e := by
    intro e he w
    simp only [lineRun, List.map_cons, List.map_nil, List.mem_cons, List.not_mem_nil, or_false] at he
    rcases he with rfl | rfl | rfl
    · exact ⟨trivial, fun message hm => by cases hm; rfl⟩
    · exact ⟨trivial, fun message hm => by cases hm; rfl⟩
    · exact ⟨trivial, fun message hm => by cases hm; rfl⟩
  have hrun : (run (logged (SequentialProcessor.step ⟨30000, true⟩)) anyStep (start, [])
      lineRun).any fun w => "receipt" ∈ w.1.pending := by decide +kernel
  obtain ⟨w, hw, hparked⟩ := (Option.any_eq_true _ _).mp hrun
  have hmem := of_decide_eq_true hparked
  exact ⟨w, hmem, (no_deadlock lineIds_injective (reach_of_run_of_forall hok hw)).2.1 _ hmem⟩

end SequentialProcessor
end RabbitMQ
