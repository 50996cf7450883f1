import RabbitMQ.Lib.Transition
import RabbitMQ.Messaging.FireAndForget

/-! What the calls that wait for no confirm have written, and what they wait for. -/

namespace RabbitMQ
namespace FireAndForget

open Transition

variable {s s' : State} {id channel : Nat} {call : Call} {occasion : Occasion} {l : Listener}

/-! ## What holds of every call -/

/-- How far a call is, by its stage. -/
def Call.Bounded (call : Call) : Prop :=
  match call.stage with
  | .acquiring | .encoding => call.next = 0
  | .publishing => call.next < call.count
  | .draining | .drained => 0 < call.next ∧ call.next ≤ call.count
  | .resolved => call.next = call.count
  | .rejected _ => call.next ≤ call.count

/-- The listener belongs to a call that waits for its channel. -/
def State.Awaited (s : State) (l : Listener) : Prop :=
  ∃ call, s.calls.get? l.call = some call ∧ call.stage = .draining ∧
    call.channel = some l.channel ∧ call.next = l.index + 1

structure Kept (s : State) : Prop where
  bounded : ∀ id call, s.calls.get? id = some call → 0 < call.count ∧ call.Bounded
  ordered : ∀ id call, s.calls.get? id = some call →
    (s.framesOf id).map (·.index) = List.range call.next
  channel : ∀ f ∈ s.wire, ∃ call, s.calls.get? f.call = some call ∧ call.channel = some f.channel
  nodup : s.listeners.Nodup
  listeners : ∀ l, l ∈ s.listeners ↔ s.Awaited l

theorem kept_start : Kept start where
  bounded _ _ h := nomatch h
  ordered _ _ h := nomatch h
  channel _ h := nomatch h
  nodup := .nil
  listeners _ := ⟨nofun, fun ⟨_, h, _⟩ => nomatch h⟩

/-- What is on the wire of a call that wrote nothing. -/
theorem Kept.unwritten (h : Kept s) (hc : s.calls.get? id = some call) (hnext : call.next = 0)
    {f : Frame} (hf : f ∈ s.wire) : f.call ≠ id := by
  intro heq
  have hframes : (s.framesOf id).map (·.index) = [] := by
    rw [h.ordered id call hc, hnext]
    rfl
  have hmem : f ∈ s.framesOf id := List.mem_filter.mpr ⟨hf, decide_eq_true heq⟩
  rw [List.map_eq_nil_iff.mp hframes] at hmem
  cases hmem

/-- A step of one call that writes nothing and neither begins nor ends a wait. -/
theorem Kept.put (h : Kept s) (hc : s.calls.get? id = some call) {call' : Call}
    (hbounded : 0 < call'.count ∧ call'.Bounded) (hnext : call'.next = call.next)
    (hchannel : call.next = 0 ∨ call'.channel = call.channel)
    (hbefore : call.stage ≠ .draining) (hafter : call'.stage ≠ .draining) : Kept (s.put id call') := by
  refine ⟨fun i c hget => ?_, fun i c hget => ?_, fun f hf => ?_, h.nodup, fun l => ?_⟩
  · dsimp only [State.put] at hget
    rw [OrderedMap.get?_set] at hget
    split at hget
    · cases hget
      exact hbounded
    · exact h.bounded i c hget
  · dsimp only [State.put] at hget
    rw [OrderedMap.get?_set] at hget
    split at hget
    · next heq =>
      cases hget
      subst heq
      rw [hnext]
      exact h.ordered i call hc
    · exact h.ordered i c hget
  · obtain ⟨c, hget, hchannel'⟩ := h.channel f hf
    dsimp only [State.put]
    rw [OrderedMap.get?_set]
    split
    · next heq =>
      rcases hchannel with hzero | hsame
      · exact absurd heq (h.unwritten hc hzero hf)
      · rw [heq] at hget
        cases hc.symm.trans hget
        exact ⟨call', rfl, hsame.trans hchannel'⟩
    · exact ⟨c, hget, hchannel'⟩
  · rw [show (s.put id call').listeners = s.listeners from rfl, h.listeners l]
    refine exists_congr fun c => and_congr_left fun hwaits => ?_
    dsimp only [State.put]
    rw [OrderedMap.get?_set]
    split
    · next heq =>
      rw [heq, hc]
      refine iff_of_false ?_ ?_
      · rintro ⟨⟩
        exact hbefore hwaits.1
      · rintro ⟨⟩
        exact hafter hwaits.1
    · exact .rfl

/-- The frames of a call that writes one more. -/
theorem framesOf_write (s : State) (channel id index i : Nat) :
    (s.write channel id index).framesOf i =
      s.framesOf i ++ if i = id then [⟨channel, id, index⟩] else [] := by
  change (s.wire ++ [_]).filter _ = _
  rw [List.filter_append]
  refine congrArg (s.framesOf i ++ ·) ?_
  split
  · next heq => exact List.filter_cons_of_pos (decide_eq_true heq.symm)
  · next hne =>
    refine List.filter_cons_of_neg ?_
    rw [decide_eq_true_iff]
    exact Ne.symm hne

/-- A call writes its next message, and waits for its channel or not. -/
theorem Kept.writes (h : Kept s) (hc : s.calls.get? id = some call)
    (hchannel : call.channel = some channel) (hbefore : call.stage ≠ .draining) (call' : Call)
    (hbounded : 0 < call'.count ∧ call'.Bounded) (hnext : call'.next = call.next + 1)
    (hchannel' : call'.channel = call.channel) {listeners : List Listener}
    (hnodup : listeners.Nodup) (hlisteners : ∀ l, l ∈ listeners ↔ l ∈ s.listeners ∨
      call'.stage = .draining ∧ l.channel = channel ∧ l.call = id ∧ l.index = call.next) :
    Kept { (s.write channel id call.next).put id call' with listeners } := by
  have hget : ∀ {i c}, (s.calls.set id call').get? i = some c →
      i = id ∧ c = call' ∨ i ≠ id ∧ s.calls.get? i = some c := by
    intro i c hc'
    rw [OrderedMap.get?_set] at hc'
    split at hc'
    · next heq =>
      cases hc'
      exact .inl ⟨heq, rfl⟩
    · next hne => exact .inr ⟨hne, hc'⟩
  refine ⟨fun i c hc' => ?_, fun i c hc' => ?_, fun f hf => ?_, hnodup, fun l => ?_⟩
  · rcases hget hc' with ⟨-, rfl⟩ | ⟨-, hc'⟩
    · exact hbounded
    · exact h.bounded i c hc'
  · change ((s.write channel id call.next).framesOf i).map (·.index) = _
    rw [framesOf_write, List.map_append]
    rcases hget hc' with ⟨rfl, rfl⟩ | ⟨hne, hc'⟩
    · rw [if_pos rfl, h.ordered i call hc, hnext, List.range_succ]
      rfl
    · rw [if_neg hne, h.ordered i c hc']
      exact List.append_nil _
  · dsimp only [State.put, State.write] at hf ⊢
    rw [OrderedMap.get?_set]
    rcases List.mem_append.mp hf with hf | hf
    · obtain ⟨c, hc', hf⟩ := h.channel f hf
      split
      · next heq =>
        rw [heq] at hc'
        cases hc.symm.trans hc'
        exact ⟨call', rfl, hchannel'.trans hf⟩
      · exact ⟨c, hc', hf⟩
    · rw [List.mem_singleton.mp hf]
      exact ⟨call', if_pos rfl, hchannel'.trans hchannel⟩
  · rw [show l ∈ ({ (s.write channel id call.next).put id call' with listeners } : State).listeners ↔
      l ∈ listeners from .rfl, hlisteners, h.listeners l]
    dsimp only [State.Awaited, State.put, State.write]
    rw [OrderedMap.get?_set]
    split
    · next heq =>
      rw [heq, hc]
      constructor
      · rintro (⟨_, ⟨⟩, hwaits, -⟩ | ⟨hwaits, hl, -, hindex⟩)
        · exact absurd hwaits hbefore
        · exact ⟨call', rfl, hwaits, by rw [hchannel', hchannel, hl], by rw [hnext, hindex]⟩
      · rintro ⟨_, ⟨⟩, hwaits, hl, hindex⟩
        rw [hchannel', hchannel] at hl
        rw [hnext] at hindex
        exact .inr ⟨hwaits, (Option.some_inj.mp hl).symm, rfl, (Nat.succ_inj.mp hindex).symm⟩
    · next hne => exact or_iff_left fun hl => hne hl.2.2.1

theorem Call.bounded_proceed {call : Call} (hle : call.next ≤ call.count) : call.proceed.Bounded := by
  unfold Call.proceed
  split
  · next hlt => exact hlt
  · next hnot => exact Nat.le_antisymm hle (Nat.le_of_not_lt hnot)

theorem Kept.publish (h : Kept s) (hc : s.calls.get? id = some call)
    (hstage : call.stage = .publishing) (hchannel : call.channel = some channel) (wrote : Wrote) :
    Kept (s.publish id channel call wrote) := by
  have hnot : call.stage ≠ .draining := by
    rw [hstage]
    exact Stage.noConfusion
  obtain ⟨hcount, hbounded⟩ := h.bounded id call hc
  have hlt : call.next < call.count := by
    rw [Call.Bounded, hstage] at hbounded
    exact hbounded
  cases wrote with
  | threw =>
    exact h.put hc ⟨hcount, Nat.le_of_lt hlt⟩ rfl (.inr rfl) hnot Stage.noConfusion
  | accepted =>
    refine h.writes hc hchannel hnot ({ call with next := call.next + 1 } : Call).proceed
      ⟨hcount, Call.bounded_proceed hlt⟩ rfl rfl h.nodup fun l => ?_
    refine (or_iff_left ?_).symm
    rintro ⟨hwaits, -⟩
    dsimp only [Call.proceed] at hwaits
    split at hwaits <;> cases hwaits
  | full =>
    have hfresh : ∀ occasion, (⟨channel, id, call.next, occasion⟩ : Listener) ∉ s.listeners := by
      intro occasion hmem
      obtain ⟨c, hc', hwaits, -⟩ := (h.listeners _).mp hmem
      cases hc.symm.trans hc'
      exact hnot hwaits
    refine h.writes hc hchannel hnot { call with next := call.next + 1, stage := .draining }
      ⟨hcount, And.intro (Nat.succ_pos _) hlt⟩ rfl rfl ?_ fun l => ?_
    · refine List.nodup_append.mpr ⟨h.nodup, by simp, ?_⟩
      rintro a ha b hb rfl
      simp only [List.mem_cons, List.not_mem_nil, or_false] at hb
      rcases hb with rfl | rfl | rfl <;> exact hfresh _ ha
    · refine List.mem_append.trans (or_congr_right ?_)
      obtain ⟨ch, i, index, occasion⟩ := l
      simp only [List.mem_cons, Listener.mk.injEq, List.not_mem_nil, or_false, true_and]
      cases occasion <;> simp

/-! ## A channel that emits -/

/-- The listener of a call that waits settles its promise. -/
theorem notify_eq (hc : s.calls.get? l.call = some call) (hwaits : call.stage = .draining)
    (hindex : call.next = l.index + 1) : s.notify l =
      (s.cleanup l).put l.call { call with stage := l.occasion.outcome } := by
  have hc' : (s.cleanup l).calls.get? l.call = some call := hc
  simp only [State.notify, hc', hwaits, hindex, and_self, if_true]

theorem outcome_ne_draining (occasion : Occasion) : occasion.outcome ≠ .draining := by
  cases occasion <;> exact Stage.noConfusion

/-- It takes the other listeners of its call with it. -/
theorem Kept.notify (h : Kept s) (hl : l ∈ s.listeners) : Kept (s.notify l) := by
  obtain ⟨call, hc, hwaits, hchannel, hindex⟩ := (h.listeners l).mp hl
  obtain ⟨hcount, hbounded⟩ := h.bounded l.call call hc
  rw [Call.Bounded, hwaits] at hbounded
  rw [notify_eq hc hwaits hindex]
  have hget : ∀ {i c}, (s.calls.set l.call { call with stage := l.occasion.outcome }).get? i =
      some c → i = l.call ∧ c = { call with stage := l.occasion.outcome } ∨
        i ≠ l.call ∧ s.calls.get? i = some c := by
    intro i c hc'
    rw [OrderedMap.get?_set] at hc'
    split at hc'
    · next heq =>
      cases hc'
      exact .inl ⟨heq, rfl⟩
    · next hne => exact .inr ⟨hne, hc'⟩
  refine ⟨fun i c hc' => ?_, fun i c hc' => ?_, fun f hf => ?_, h.nodup.filter _, fun m => ?_⟩
  · rcases hget hc' with ⟨-, rfl⟩ | ⟨-, hc'⟩
    · refine ⟨hcount, ?_⟩
      rw [Call.Bounded]
      cases l.occasion with
      | drain => exact hbounded
      | close | error => exact hbounded.2
    · exact h.bounded i c hc'
  · rcases hget hc' with ⟨rfl, rfl⟩ | ⟨-, hc'⟩
    · exact h.ordered l.call call hc
    · exact h.ordered i c hc'
  · obtain ⟨c, hc', hf⟩ := h.channel f hf
    dsimp only [State.put, State.cleanup]
    rw [OrderedMap.get?_set]
    split
    · next heq =>
      rw [heq] at hc'
      cases hc.symm.trans hc'
      exact ⟨_, rfl, hf⟩
    · exact ⟨c, hc', hf⟩
  · dsimp only [State.Awaited, State.put, State.cleanup]
    rw [List.mem_filter, decide_eq_true_iff, h.listeners m, OrderedMap.get?_set]
    split
    · next heq =>
      refine iff_of_false ?_ ?_
      · rintro ⟨⟨c, hc', -, -, hindex'⟩, hnot⟩
        rw [heq] at hc'
        cases hc.symm.trans hc'
        exact hnot ⟨heq, Nat.succ_inj.mp (hindex'.symm.trans hindex)⟩
      · rintro ⟨_, ⟨⟩, hwaits', -⟩
        exact outcome_ne_draining l.occasion hwaits'
    · next hne => exact and_iff_left fun heq => hne heq.1

/-- Two listeners of one call are there for the same message. -/
theorem Kept.listener_inj (h : Kept s) {m : Listener} (hl : l ∈ s.listeners)
    (hm : m ∈ s.listeners) (hcall : m.call = l.call) (hchannel : m.channel = l.channel)
    (hoccasion : m.occasion = l.occasion) : m = l := by
  obtain ⟨call, hc, -, -, hindex⟩ := (h.listeners l).mp hl
  obtain ⟨call', hc', -, -, hindex'⟩ := (h.listeners m).mp hm
  rw [hcall] at hc'
  cases hc.symm.trans hc'
  obtain ⟨ch, i, index, occ⟩ := l
  obtain ⟨ch', i', index', occ'⟩ := m
  cases hcall
  cases hchannel
  cases hoccasion
  cases Nat.succ_inj.mp (hindex'.symm.trans hindex)
  rfl

/-- The promises of those who are called are settled, and nothing else happens. -/
theorem Kept.foldl_notify (h : Kept s) {ls : List Listener} (hnodup : ls.Nodup)
    (hls : ∀ l ∈ ls, l ∈ s.listeners ∧ l.channel = channel ∧ l.occasion = occasion) :
    Kept (ls.foldl State.notify s) ∧ (ls.foldl State.notify s).wire = s.wire ∧
      ∀ id, (ls.foldl State.notify s).calls.get? id =
        if ∃ l ∈ ls, l.call = id then
          (s.calls.get? id).map fun call => { call with stage := occasion.outcome }
        else s.calls.get? id := by
  induction ls generalizing s with
  | nil => exact ⟨h, rfl, fun id => (if_neg (by simp)).symm⟩
  | cons l ls ih =>
    obtain ⟨hl, hchannel, hoccasion⟩ := hls l List.mem_cons_self
    obtain ⟨call, hc, hwaits, -, hindex⟩ := (h.listeners l).mp hl
    obtain ⟨hnot, hnodup⟩ := List.nodup_cons.mp hnodup
    have hother : ∀ m ∈ ls, m.call ≠ l.call := by
      intro m hm hcall
      obtain ⟨hmem, hchannel', hoccasion'⟩ := hls m (List.mem_cons_of_mem _ hm)
      have heq := h.listener_inj hl hmem hcall (hchannel'.trans hchannel.symm)
        (hoccasion'.trans hoccasion.symm)
      exact hnot (heq ▸ hm)
    have hrest : ∀ m ∈ ls, m ∈ (s.notify l).listeners ∧ m.channel = channel ∧
        m.occasion = occasion := by
      intro m hm
      obtain ⟨hmem, hm'⟩ := hls m (List.mem_cons_of_mem _ hm)
      refine ⟨?_, hm'⟩
      rw [notify_eq hc hwaits hindex]
      exact List.mem_filter.mpr ⟨hmem, decide_eq_true fun heq => hother m hm heq.1⟩
    obtain ⟨hkept, hwire, hcalls⟩ := ih (h.notify hl) hnodup hrest
    rw [List.foldl_cons]
    refine ⟨hkept, hwire.trans ?_, fun id => (hcalls id).trans ?_⟩
    · rw [notify_eq hc hwaits hindex]
      rfl
    · rw [notify_eq hc hwaits hindex]
      dsimp only [State.put, State.cleanup]
      rw [OrderedMap.get?_set]
      by_cases hid : id = l.call
      · subst hid
        rw [if_pos rfl, hc, if_neg fun hex => by
          obtain ⟨m, hm, hcall⟩ := hex
          exact hother m hm hcall, if_pos ⟨l, List.mem_cons_self, rfl⟩, hoccasion]
        rfl
      · have hiff : (∃ m ∈ l :: ls, m.call = id) ↔ ∃ m ∈ ls, m.call = id := by
          simp only [List.mem_cons, exists_eq_or_imp, Ne.symm hid, false_or]
        rw [if_neg hid, if_congr hiff rfl rfl]

/-- The calls that wait for the channel, and no others, are settled. -/
theorem Kept.emit (h : Kept s) (channel : Nat) (occasion : Occasion) :
    Kept (s.emit channel occasion) ∧ (s.emit channel occasion).wire = s.wire ∧
      ∀ id, (s.emit channel occasion).calls.get? id = (s.calls.get? id).map fun call =>
        if call.stage = .draining ∧ call.channel = some channel then
          { call with stage := occasion.outcome } else call := by
  have hmem : ∀ l, l ∈ s.listeners.filter (fun l => l.channel = channel ∧ l.occasion = occasion) ↔
      l ∈ s.listeners ∧ l.channel = channel ∧ l.occasion = occasion := fun l => by
    rw [List.mem_filter, decide_eq_true_iff]
  obtain ⟨hkept, hwire, hcalls⟩ := h.foldl_notify (h.nodup.filter _) fun l hl => (hmem l).mp hl
  refine ⟨hkept, hwire, fun id => (hcalls id).trans ?_⟩
  cases hc : s.calls.get? id with
  | none => exact ite_self _
  | some call =>
    have hiff : (∃ l ∈ s.listeners.filter (fun l => l.channel = channel ∧ l.occasion = occasion),
        l.call = id) ↔ call.stage = .draining ∧ call.channel = some channel := by
      constructor
      · rintro ⟨l, hl, rfl⟩
        obtain ⟨hlistens, hchannel, -⟩ := (hmem l).mp hl
        obtain ⟨call', hc', hwaits, hchannel', -⟩ := (h.listeners l).mp hlistens
        cases hc.symm.trans hc'
        exact ⟨hwaits, hchannel ▸ hchannel'⟩
      · rintro ⟨hwaits, hchannel⟩
        have hbounded := (h.bounded id call hc).2
        rw [Call.Bounded, hwaits] at hbounded
        refine ⟨⟨channel, id, call.next - 1, occasion⟩, (hmem _).mpr ⟨?_, rfl, rfl⟩, rfl⟩
        exact (h.listeners _).mpr
          ⟨call, hc, hwaits, hchannel, (Nat.sub_add_cancel hbounded.1).symm⟩
    rw [if_congr hiff rfl rfl]
    simp only [Option.map_some]
    split <;> rfl

/-! ## Every run -/

theorem Kept.begins (h : Kept s) (hfresh : id ∉ s.calls) {count : Nat} (hsome : count ≠ 0) :
    Kept (s.put id ⟨count, none, 0, .acquiring⟩) := by
  have hnone := OrderedMap.not_mem_iff.mp hfresh
  have hnew : ∀ {i c}, s.calls.get? i = some c → i ≠ id := by
    rintro i c hc rfl
    cases hnone.symm.trans hc
  refine ⟨fun i c hc => ?_, fun i c hc => ?_, fun f hf => ?_, h.nodup, fun l => ?_⟩
  · dsimp only [State.put] at hc
    rw [OrderedMap.get?_set] at hc
    split at hc
    · cases hc
      exact ⟨Nat.pos_of_ne_zero hsome, rfl⟩
    · exact h.bounded i c hc
  · dsimp only [State.put] at hc
    rw [OrderedMap.get?_set] at hc
    split at hc
    · next heq =>
      cases hc
      have hframes : s.framesOf i = [] := by
        refine List.filter_eq_nil_iff.mpr fun f hf => ?_
        obtain ⟨c, hc, -⟩ := h.channel f hf
        rw [decide_eq_true_iff, heq]
        exact hnew hc
      exact congrArg _ hframes
    · exact h.ordered i c hc
  · obtain ⟨c, hc, hf⟩ := h.channel f hf
    exact ⟨c, (OrderedMap.get?_set _ _ _ _).trans ((if_neg (hnew hc)).trans hc), hf⟩
  · rw [show (s.put id _).listeners = s.listeners from rfl, h.listeners l]
    refine exists_congr fun c => and_congr_left fun hwaits => ?_
    dsimp only [State.put]
    rw [OrderedMap.get?_set]
    split
    · next heq =>
      rw [heq, hnone]
      refine iff_of_false (Option.some_ne_none c).symm ?_
      rintro ⟨⟩
      cases hwaits.1
    · exact .rfl

theorem Steps.kept {event : Event} (H : Steps s event s') (h : Kept s) : Kept s' := by
  cases H with
  | call hfresh hsome => exact h.begins hfresh hsome
  | @refused id call hc hstage =>
    obtain ⟨hcount, hbounded⟩ := h.bounded id call hc
    rw [Call.Bounded, hstage] at hbounded
    have hle : call.next ≤ call.count := hbounded ▸ Nat.zero_le _
    exact h.put hc ⟨hcount, hle⟩ rfl (.inr rfl) (hstage ▸ Stage.noConfusion) Stage.noConfusion
  | @acquired id call channel hc hstage =>
    obtain ⟨hcount, hbounded⟩ := h.bounded id call hc
    rw [Call.Bounded, hstage] at hbounded
    refine h.put hc ⟨hcount, ?_⟩ rfl (.inl hbounded) (hstage ▸ Stage.noConfusion) ?_
    · cases channel with
      | some channel => exact hbounded
      | none => exact hbounded ▸ Nat.zero_le call.count
    · cases channel <;> exact Stage.noConfusion
  | @encoded id call ok hc hstage =>
    obtain ⟨hcount, hbounded⟩ := h.bounded id call hc
    rw [Call.Bounded, hstage] at hbounded
    refine h.put hc ⟨hcount, ?_⟩ rfl (.inr rfl) (hstage ▸ Stage.noConfusion) ?_
    · cases ok with
      | true => exact hbounded ▸ hcount
      | false => exact hbounded ▸ Nat.zero_le call.count
    · cases ok <;> exact Stage.noConfusion
  | publishes hc hstage hchannel => exact h.publish hc hstage hchannel _
  | emits => exact (h.emit _ _).1
  | @resumes id call hc hstage =>
    obtain ⟨hcount, hbounded⟩ := h.bounded id call hc
    rw [Call.Bounded, hstage] at hbounded
    refine h.put hc ⟨hcount, Call.bounded_proceed hbounded.2⟩ rfl (.inr rfl)
      (hstage ▸ Stage.noConfusion) ?_
    dsimp only [Call.proceed]
    split <;> exact Stage.noConfusion

theorem kept (hr : Reach step anyStep start s) : Kept s :=
  hr.invariant kept_start fun h _ hs => (step_cases hs).kept h

/-- What was written stays written, and a call that settled writes nothing more. -/
structure Extends (s s' : State) : Prop where
  wire : s.wire <+: s'.wire
  settled : ∀ id call, s.calls.get? id = some call → call.stage.settled →
    s'.calls.get? id = some call

theorem Extends.put (hc : s.calls.get? id = some call) (hopen : call.stage.settled = false)
    (t : State) (hcalls : t.calls = s.calls) (hwire : s.wire <+: t.wire) (call' : Call) :
    Extends s (t.put id call') := by
  refine ⟨hwire, fun i c hget hsettled => ?_⟩
  refine (OrderedMap.get?_set _ _ _ _).trans ((if_neg ?_).trans (hcalls ▸ hget))
  rintro rfl
  cases hc.symm.trans hget
  cases hopen.symm.trans hsettled

theorem Steps.extends {event : Event} (H : Steps s event s') (h : Kept s) : Extends s s' := by
  cases H with
  | @call id count hfresh hsome =>
    refine ⟨List.prefix_rfl, fun i c hget _ => ?_⟩
    refine (OrderedMap.get?_set _ _ _ _).trans ((if_neg ?_).trans hget)
    rintro rfl
    exact hfresh (OrderedMap.mem_of_get? hget)
  | refused hc hstage | acquired hc hstage | encoded hc hstage | resumes hc hstage =>
    exact .put hc (by rw [hstage]; rfl) s rfl List.prefix_rfl _
  | @publishes id call channel wrote hc hstage hchannel =>
    have hopen : call.stage.settled = false := by rw [hstage]; rfl
    cases wrote with
    | threw => exact .put hc hopen s rfl List.prefix_rfl _
    | accepted =>
      exact .put hc hopen (s.write channel id call.next) rfl (List.prefix_append _ _) _
    | full =>
      exact .put hc hopen ((s.write channel id call.next).listen channel id call.next) rfl
        (List.prefix_append _ _) _
  | emits =>
    obtain ⟨-, hwire, hcalls⟩ := h.emit _ _
    refine ⟨hwire ▸ List.prefix_rfl, fun i c hget hsettled => ?_⟩
    rw [hcalls, hget, Option.map_some, if_neg]
    rintro ⟨hwaits, -⟩
    rw [hwaits] at hsettled
    cases hsettled

theorem extends_of_reach (h : Kept s) (hr : Reach step anyStep s s') : Kept s' ∧ Extends s s' :=
  hr.invariant (I := fun t => Kept t ∧ Extends s t) ⟨h, List.prefix_rfl, fun _ _ hc _ => hc⟩
    fun ⟨h, he⟩ _ hs => ⟨(step_cases hs).kept h,
      he.wire.trans ((step_cases hs).extends h).wire,
      fun id call hc hsettled => ((step_cases hs).extends h).settled id call
        (he.settled id call hc hsettled) hsettled⟩

/-- What was written of the messages of a call: the first of them, in order and each once, and all
of them if it resolved. -/
structure InOrder (s : State) (id : Nat) (call : Call) : Prop where
  ordered : (s.framesOf id).map (·.index) = List.range call.next
  channel : ∀ f ∈ s.framesOf id, call.channel = some f.channel
  bounded : call.next ≤ call.count
  resolved : call.stage = .resolved → call.next = call.count

theorem Call.Bounded.le {call : Call} (h : call.Bounded) : call.next ≤ call.count := by
  unfold Call.Bounded at h
  split at h <;> omega

theorem Kept.inOrder (h : Kept s) (hc : s.calls.get? id = some call) : InOrder s id call where
  ordered := h.ordered id call hc
  channel f hf := by
    obtain ⟨hmem, hid⟩ := List.mem_filter.mp hf
    obtain ⟨call', hc', hchannel⟩ := h.channel f hmem
    rw [of_decide_eq_true hid] at hc'
    cases hc.symm.trans hc'
    exact hchannel
  bounded := (h.bounded id call hc).2.le
  resolved hstage := by
    have hbounded := (h.bounded id call hc).2
    rw [Call.Bounded, hstage] at hbounded
    exact hbounded

/-- In every run, however the calls interleave on a channel, the messages of each are written in
order and without repetition, and none is written once the call has settled. -/
theorem messages_in_order (hr : Reach step anyStep start s) (hr' : Reach step anyStep s s')
    (hc : s.calls.get? id = some call) : InOrder s id call ∧ s.framesOf id <+: s'.framesOf id ∧
      (call.stage.settled → s'.calls.get? id = some call ∧ s'.framesOf id = s.framesOf id) := by
  have h := kept hr
  obtain ⟨h', he⟩ := extends_of_reach h hr'
  have hextends : s.framesOf id <+: s'.framesOf id := he.wire.filter _
  refine ⟨h.inOrder hc, hextends, fun hsettled => ?_⟩
  have hc' := he.settled id call hc hsettled
  have hlength : (s.framesOf id).length = (s'.framesOf id).length := by
    have hmap := (h.ordered id call hc).trans (h'.ordered id call hc').symm
    rw [← List.length_map (f := Frame.index), hmap, List.length_map]
  exact ⟨hc', (hextends.eq_of_length hlength).symm⟩

/-- In every run, the listeners on the channels are those of the calls that wait, and whatever a
channel emits leaves none of its own: every call that waits for it goes on or fails. -/
theorem no_wait_outlasts (hr : Reach step anyStep start s)
    (hs : step s (.emits channel occasion) = some s') :
    (s.listeners.Nodup ∧ ∀ l, l ∈ s.listeners ↔ s.Awaited l) ∧
      (∀ l ∈ s'.listeners, l.channel ≠ channel) ∧
      ∀ id, s'.calls.get? id = (s.calls.get? id).map fun call =>
        if call.stage = .draining ∧ call.channel = some channel then
          { call with stage := occasion.outcome } else call := by
  have h := kept hr
  cases hs
  obtain ⟨hkept, -, hcalls⟩ := h.emit channel occasion
  refine ⟨⟨h.nodup, h.listeners⟩, fun l hl heq => ?_, hcalls⟩
  obtain ⟨call', hc', hwaits, hchannel, -⟩ := (hkept.listeners l).mp hl
  rw [hcalls] at hc'
  obtain ⟨call, -, rfl⟩ := Option.map_eq_some_iff.mp hc'
  split at hwaits
  · exact outcome_ne_draining occasion hwaits
  · next hnot =>
    rw [if_neg hnot, heq] at hchannel
    exact hnot ⟨hwaits, hchannel⟩

/-- Two batches share a channel whose buffer is full. -/
def shared : List Event :=
  [.call 1 3, .call 2 2, .acquired 1 (some 7), .acquired 2 (some 7), .encoded 1 true,
    .encoded 2 true, .publishes 1 .accepted, .publishes 2 .full, .publishes 1 .full]

/-- The channel drains, and closes before the first batch is through. -/
def drainedThenClosed : List Event :=
  [.emits 7 .drain, .resumes 2, .publishes 2 .accepted, .resumes 1, .publishes 1 .full,
    .emits 7 .close]

theorem messages_in_order_shared : ∃ s, Reach step anyStep start s ∧ ∃ call,
    InOrder s 2 call ∧ call.stage = .resolved ∧ s.framesOf 2 = [⟨7, 2, 0⟩, ⟨7, 2, 1⟩] := by
  have hrun : (run step anyStep start (shared ++ drainedThenClosed)).any fun s => decide
      (s.calls.get? 2 = some ⟨2, some 7, 2, .resolved⟩ ∧
        s.framesOf 2 = [⟨7, 2, 0⟩, ⟨7, 2, 1⟩]) := by decide +kernel
  obtain ⟨s, hs, h⟩ := (Option.any_eq_true _ _).mp hrun
  obtain ⟨hc, hframes⟩ := of_decide_eq_true h
  have hr := reach_of_run hs
  exact ⟨s, hr, _, (messages_in_order hr .refl hc).1, rfl, hframes⟩

theorem no_wait_outlasts_shared : ∃ s s', Reach step anyStep start s ∧ s.listeners.length = 6 ∧
    step s (.emits 7 .drain) = some s' ∧ ∀ l ∈ s'.listeners, l.channel ≠ 7 := by
  have hrun : (run step anyStep start shared).any fun s => decide (s.listeners.length = 6) := by
    decide +kernel
  obtain ⟨s, hs, h⟩ := (Option.any_eq_true _ _).mp hrun
  have hr := reach_of_run hs
  exact ⟨s, _, hr, of_decide_eq_true h, rfl, (no_wait_outlasts hr rfl).2.1⟩

end FireAndForget
end RabbitMQ
