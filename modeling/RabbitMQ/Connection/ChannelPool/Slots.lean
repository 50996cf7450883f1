import Mathlib.Data.List.Count
import RabbitMQ.Connection.ChannelPool

/-! The slots of a pool: each holds an open channel, or has one loop that refills it, or was given
up after five attempts. -/

namespace RabbitMQ
namespace ChannelPool

open Transition

variable {size : Nat} {s s' : State}

/-- The loop can still open a channel. -/
def Replacement.canOpen (r : Replacement) : Bool :=
  match r.stage with
  | .opening => true
  | .sleeping => decide (r.attempt < maxReplaceAttempts)
  | _ => false

/-- The loop has not found a channel. -/
def Replacement.active (r : Replacement) : Bool :=
  match r.stage with
  | .opening | .sleeping => true
  | _ => false

/-- The replacement loops of a slot that can still open a channel for it. -/
def State.openers (s : State) (index : Nat) : Nat :=
  s.replacements.countP fun r => decide (r.index = index) && r.canOpen

def Replacement.tends (r : Replacement) (index : Nat) : Bool :=
  decide (r.index = index) && r.active

def State.tended (s : State) (index : Nat) : Nat := s.replacements.countP (·.tends index)

/-- A pool, and for each of its slots the opens that failed since it was lost. -/
structure Counted where
  pool : State
  failures : Nat → Nat

def countedStart (size : Nat) : Counted := ⟨start size, fun _ => 0⟩

def tally (s s' : State) (event : Event) (failures : Nat → Nat) (index : Nat) : Nat :=
  if (s.slot index).isSome ∧ s'.slot index = none then 0
  else match event with
    | .replacementFails r => if r.index = index then failures index + 1 else failures index
    | _ => failures index

def counted (w : Counted) (event : Event) : Option Counted :=
  (step w.pool event).map fun s => ⟨s, tally w.pool s event w.failures⟩

/-- Each slot of an open pool is live, being refilled, or given up. -/
structure SlotsTended (size : Nat) (w : Counted) : Prop where
  slots : ∀ index, index < size →
    (∃ channel, w.pool.slot index = some channel ∧ w.pool.live channel) ∨
      w.pool.slot index = none ∧ w.pool.openers index = 1 ∨
      w.pool.slot index = none ∧ w.pool.openers index = 0 ∧
        w.failures index = maxReplaceAttempts
  /-- no open channel of a slot was overwritten -/
  installed : ∀ channel r index, w.pool.opened.get? channel = some r → r.role = .slot index →
    r.live → w.pool.slot index = some channel
  /-- what `getChannel` returns is open -/
  handedOut : ∀ channel, w.pool.getChannel.1 = .ok channel → w.pool.live channel

/-- An open channel that was opened for a slot. -/
def State.Serves (s : State) (channel index : Nat) : Prop :=
  ∃ r, s.opened.get? channel = some r ∧ r.role = .slot index ∧ r.live

/-- The slot still waits for `initialize`, or never had a channel. -/
def State.unopened (s : State) (index : Nat) : Prop :=
  ∃ opens, s.initializing = some opens ∧ (opens[index]? = some .pending ∨
    opens[index]? = some .rejected)

structure Tended (size : Nat) (s : State) (failures : Nat → Nat) : Prop where
  initializing : ∀ opens, s.initializing = some opens → opens.length = size
  unopened : ∀ index, s.unopened index → s.slot index = none ∧ s.tended index = 0
  occupied : ∀ index channel, s.slot index = some channel ↔ s.Serves channel index
  held : ∀ index, (s.slot index).isSome → index < size ∧ s.tended index = 0
  empty : ∀ index, index < size → s.slot index = none → s.unopened index ∨ s.tended index = 1 ∨
    s.tended index = 0 ∧ failures index = maxReplaceAttempts
  paced : ∀ r ∈ s.replacements, r.active → r.index < size ∧ r.attempt ≤ maxReplaceAttempts ∧
    failures r.index + (if r.stage = .opening then 1 else 0) = r.attempt

/-- Of a pool that is not closed. -/
structure Slots (size : Nat) (w : Counted) : Prop where
  closes : w.pool.closes ≠ [] → w.pool.closed
  tended : w.pool.closed = false → Tended size w.pool w.failures

theorem slots_start (size : Nat) : Slots size (countedStart size) := by
  refine ⟨fun h => absurd rfl h, fun _ => ⟨fun opens h => ?_, fun index _ => ⟨rfl, rfl⟩,
    fun index channel => ⟨nofun, nofun⟩, nofun, fun index hlt _ => .inl ?_, nofun⟩⟩
  · cases h
    exact List.length_replicate
  · refine ⟨_, rfl, .inl ?_⟩
    rw [List.getElem?_replicate, if_pos hlt]

/-! ## The loops of a slot -/

theorem tended_replace {r : Replacement} (hmem : r ∈ s.replacements) (next : Option Replacement)
    (index : Nat) : (s.replace r next).tended index + (r.tends index).toNat =
      s.tended index + (next.any (·.tends index)).toNat := by
  have herase := List.countP_erase (·.tends index) s.replacements r
  have hpos : r.tends index → 0 < s.replacements.countP (·.tends index) := fun h =>
    List.countP_pos_iff.mpr ⟨r, hmem, h⟩
  have hnext : next.toList.countP (·.tends index) = (next.any (·.tends index)).toNat := by
    cases next with
    | none => rfl
    | some r' => cases h : r'.tends index <;> simp [h]
  simp only [State.tended, State.replace, List.countP_append, hnext, herase, hmem, true_and]
  cases h : r.tends index with
  | false => simp; omega
  | true =>
    have := hpos h
    simp only [if_true, Bool.toNat_true]
    omega

theorem tends_iff {r : Replacement} {index : Nat} :
    r.tends index = true ↔ r.index = index ∧ r.active = true := by
  simp [Replacement.tends]

/-- A slot with a loop that has not found a channel has no other. -/
theorem Tended.alone {failures : Nat → Nat} (h : Tended size s failures) {r : Replacement}
    (hmem : r ∈ s.replacements) (hactive : r.active) :
    s.slot r.index = none ∧ s.tended r.index = 1 := by
  have hpos : 0 < s.tended r.index := List.countP_pos_iff.mpr ⟨r, hmem, tends_iff.mpr ⟨rfl, hactive⟩⟩
  have hnone : s.slot r.index = none := by
    cases hslot : s.slot r.index with
    | none => rfl
    | some channel =>
      have := (h.held r.index (by simp [hslot])).2
      omega
  refine ⟨hnone, ?_⟩
  rcases h.empty r.index (h.paced r hmem hactive).1 hnone with hun | hone | ⟨hzero, -⟩
  · have := (h.unopened r.index hun).2
    omega
  · exact hone
  · omega

/-- What is left of the loops of a slot once the one that tended it is gone. -/
theorem Tended.rest {failures : Nat → Nat} (h : Tended size s failures) {r r' : Replacement}
    (hmem : r ∈ s.replacements) (hactive : r.active) (hmem' : r' ∈ s.replacements.erase r)
    (hactive' : r'.active) : r'.index ≠ r.index := by
  intro heq
  have hcount := tended_replace hmem none r.index
  have hpos : 0 < (s.replace r none).tended r.index :=
    List.countP_pos_iff.mpr ⟨r', by simpa [State.replace] using hmem',
      tends_iff.mpr ⟨heq, hactive'⟩⟩
  have hone := (h.alone hmem hactive).2
  rw [tends_iff.mpr ⟨rfl, hactive⟩] at hcount
  simp only [Option.any_none, Bool.toNat_false, Bool.toNat_true] at hcount
  omega

theorem serves_set {k channel index : Nat} {r : Channel}
    (h : s'.opened = s.opened.set channel r) : s'.Serves k index ↔
      if k = channel then r.role = .slot index ∧ r.live = true else s.Serves k index := by
  unfold State.Serves
  rw [h, OrderedMap.get?_set]
  split
  · simp
  · rfl

theorem serves_close {opened : OrderedMap Nat Channel} {p : Nat → Prop} [DecidablePred p]
    (h : ∀ k, opened.get? k = if p k then (s.opened.get? k).map Channel.close else s.opened.get? k)
    (hopened : s'.opened = opened) (channel index : Nat) :
    s'.Serves channel index ↔ s.Serves channel index := by
  unfold State.Serves
  rw [hopened, h]
  split
  · cases s.opened.get? channel with
    | none => simp
    | some r => simp [Channel.close]
  · rfl

theorem slot_none_of_unserved {failures : Nat → Nat} (h : Tended size s failures) {channel : Nat}
    (hfresh : channel ∉ s.opened) (index : Nat) : s.slot index ≠ some channel := by
  intro hslot
  obtain ⟨r, hr, -⟩ := (h.occupied index channel).mp hslot
  exact hfresh (OrderedMap.mem_of_get? hr)

theorem tally_eq {event : Event} {failures : Nat → Nat}
    (hslots : ∀ index, s.slot index ≠ none → s'.slot index ≠ none)
    (hevent : ∀ r, event ≠ .replacementFails r) : tally s s' event failures = failures := by
  funext index
  unfold tally
  rw [if_neg]
  · split
    · exact absurd rfl (hevent _)
    · rfl
  · rintro ⟨hsome, hnone⟩
    exact hslots index (Option.isSome_iff_ne_none.mp hsome) hnone

theorem Tended.same {failures : Nat → Nat} (h : Tended size s failures)
    (hchannels : s'.channels = s.channels) (hinit : s'.initializing = s.initializing)
    (htended : ∀ index, s'.tended index = s.tended index)
    (hactive : ∀ r ∈ s'.replacements, r.active → r ∈ s.replacements)
    (hserves : ∀ channel index, s'.Serves channel index ↔ s.Serves channel index) :
    Tended size s' failures := by
  have hslot : ∀ index, s'.slot index = s.slot index := fun index => by
    simp only [State.slot, hchannels]
  have hun : ∀ index, s'.unopened index ↔ s.unopened index := fun index => by
    simp only [State.unopened, hinit]
  refine ⟨hinit ▸ h.initializing, fun index hi => ?_, fun index channel => ?_, fun index hi => ?_,
    fun index hlt hi => ?_, fun r hmem hr => h.paced r (hactive r hmem hr) hr⟩
  · rw [hslot, htended]
    exact h.unopened index ((hun index).mp hi)
  · rw [hslot, hserves]
    exact h.occupied index channel
  · rw [htended]
    exact h.held index (hslot index ▸ hi)
  · rw [hun, htended]
    exact h.empty index hlt (hslot index ▸ hi)

/-- A loop that has found its channel goes on. -/
theorem Tended.passes {failures : Nat → Nat} (h : Tended size s failures) {r : Replacement}
    (hmem : r ∈ s.replacements) (hr : r.active = false) {next : Option Replacement}
    (hnext : ∀ r' ∈ next, r'.active = false) : Tended size (s.replace r next) failures := by
  refine h.same rfl rfl (fun index => ?_) (fun r' hmem' hactive => ?_) fun _ _ => .rfl
  · have hcount := tended_replace hmem next index
    have hno : next.any (·.tends index) = false := by
      cases next with
      | none => rfl
      | some r' => simp [Replacement.tends, hnext r' rfl]
    have hidle : r.tends index = false := by simp [Replacement.tends, hr]
    rwa [hidle, hno] at hcount
  · rcases List.mem_append.mp hmem' with hmem' | hmem'
    · cases (hnext r' (Option.mem_toList.mp hmem')).symm.trans hactive
    · exact List.mem_of_mem_erase hmem'

/-- A channel lands in its slot, which was empty. -/
theorem Tended.fill {failures : Nat → Nat} (h : Tended size s failures) {index channel : Nat}
    (hfresh : channel ∉ s.opened) (hlt : index < size)
    (hchannels : s'.channels = setSlot s.channels index (some channel))
    (hopened : s'.opened = s.opened.set channel ⟨.slot index, true, false⟩)
    (hlength : ∀ opens, s'.initializing = some opens → opens.length = size)
    (hun : ∀ j, s'.unopened j ↔ j ≠ index ∧ s.unopened j) (hslot : s.slot index = none)
    (htended : ∀ j, s'.tended j = if j = index then 0 else s.tended j)
    (hactive : ∀ r ∈ s'.replacements, r.active → r ∈ s.replacements) :
    Tended size s' failures := by
  have hslots : ∀ j, s'.slot j = if j = index then some channel else s.slot j := fun j => by
    simp only [State.slot, hchannels, slot_setSlot]
  refine ⟨hlength, fun j hj => ?_, fun j k => ?_, fun j hj => ?_, fun j hj hnone => ?_,
    fun r hmem hr => h.paced r (hactive r hmem hr) hr⟩
  · obtain ⟨hne, hj⟩ := (hun j).mp hj
    rw [hslots, htended, if_neg hne, if_neg hne]
    exact h.unopened j hj
  · rw [hslots, serves_set hopened]
    by_cases hk : k = channel
    · subst hk
      rw [if_pos rfl]
      by_cases hj : j = index
      · subst hj
        simp
      · rw [if_neg hj]
        simpa [Ne.symm hj] using slot_none_of_unserved h hfresh j
    · rw [if_neg hk]
      by_cases hj : j = index
      · subst hj
        rw [if_pos rfl, ← h.occupied, hslot]
        simpa using Ne.symm hk
      · rw [if_neg hj]
        exact h.occupied j k
  · rw [htended]
    by_cases hji : j = index
    · subst hji
      exact ⟨hlt, if_pos rfl⟩
    · rw [if_neg hji]
      rw [hslots, if_neg hji] at hj
      exact h.held j hj
  · rw [hslots] at hnone
    split at hnone
    · cases hnone
    · next hne =>
      rw [htended, if_neg hne, hun]
      exact (h.empty j hj hnone).imp_left fun hj => ⟨hne, hj⟩

/-- A slot loses its channel, and a loop starts for it. -/
theorem Tended.lose {failures failures' : Nat → Nat} (h : Tended size s failures)
    {index channel : Nat} {closing : Bool} (hslot : s.slot index = some channel)
    (hchannels : s'.channels = setSlot s.channels index none)
    (hopened : s'.opened = s.opened.set channel ⟨.slot index, false, closing⟩)
    (hinit : s'.initializing = s.initializing)
    (hreplacements : s'.replacements = ⟨index, 1, .opening⟩ :: s.replacements)
    (hzero : failures' index = 0) (hfailures : ∀ j, j ≠ index → failures' j = failures j) :
    Tended size s' failures' := by
  have hslots : ∀ j, s'.slot j = if j = index then none else s.slot j := fun j => by
    simp only [State.slot, hchannels, slot_setSlot]
  have hun : ∀ j, s'.unopened j ↔ s.unopened j := fun j => by
    simp only [State.unopened, hinit]
  obtain ⟨hlt, hnone⟩ := h.held index (by simp [hslot])
  have htended : ∀ j, s'.tended j = if j = index then 1 else s.tended j := fun j => by
    rw [State.tended, hreplacements, List.countP_cons]
    by_cases hj : j = index
    · subst hj
      rw [if_pos rfl, if_pos (by simp [Replacement.tends, Replacement.active])]
      exact congrArg (· + 1) hnone
    · rw [if_neg hj, if_neg (by simp [Replacement.tends, Ne.symm hj])]
      rfl
  refine ⟨hinit ▸ h.initializing, fun j hj => ?_, fun j k => ?_, fun j hj => ?_,
    fun j hj hempty => ?_, fun r hmem hr => ?_⟩
  · have hj := h.unopened j ((hun j).mp hj)
    have hne : j ≠ index := by
      rintro rfl
      cases hslot.symm.trans hj.1
    rw [hslots, htended, if_neg hne, if_neg hne]
    exact hj
  · rw [hslots, serves_set hopened]
    by_cases hk : k = channel
    · subst hk
      rw [if_pos rfl]
      by_cases hj : j = index
      · simp [hj]
      · rw [if_neg hj]
        simp only [Bool.false_eq_true, and_false, iff_false]
        intro hj'
        obtain ⟨r, hr, hrole, -⟩ := (h.occupied j k).mp hj'
        obtain ⟨r', hr', hrole', -⟩ := (h.occupied index k).mp hslot
        cases hr.symm.trans hr'
        cases hrole.symm.trans hrole'
        exact hj rfl
    · rw [if_neg hk]
      by_cases hj : j = index
      · subst hj
        rw [if_pos rfl, ← h.occupied, hslot]
        simpa using Ne.symm hk
      · rw [if_neg hj]
        exact h.occupied j k
  · rw [hslots] at hj
    split at hj
    · cases hj
    · next hne =>
      rw [htended, if_neg hne]
      exact h.held j hj
  · rw [hun, htended]
    by_cases hji : j = index
    · exact .inr (.inl (if_pos hji))
    · rw [hslots, if_neg hji] at hempty
      rw [if_neg hji, hfailures j hji]
      exact h.empty j hj hempty
  · rw [hreplacements] at hmem
    rcases List.mem_cons.mp hmem with rfl | hmem
    · exact ⟨hlt, Nat.le_add_left 1 4, by simp [hzero]⟩
    · have hne : r.index ≠ index := fun heq => by
        cases ((heq ▸ (h.alone hmem hr).1 : s.slot index = none)).symm.trans hslot
      rw [hfailures _ hne]
      exact h.paced r hmem hr

/-- The loop of a slot takes its next turn, or gives the slot up. -/
theorem Tended.turn {failures failures' : Nat → Nat} (h : Tended size s failures) {r : Replacement}
    (hmem : r ∈ s.replacements) (hactive : r.active) {next : Option Replacement}
    (hnext : ∀ r' ∈ next, r'.index = r.index ∧ r'.active ∧ r'.attempt ≤ maxReplaceAttempts ∧
      failures' r.index + (if r'.stage = .opening then 1 else 0) = r'.attempt)
    (hgives : next = none → failures' r.index = maxReplaceAttempts)
    (hfailures : ∀ index, index ≠ r.index → failures' index = failures index) :
    Tended size (s.replace r next) failures' := by
  obtain ⟨hnone, hone⟩ := h.alone hmem hactive
  have hlt := (h.paced r hmem hactive).1
  have htended : ∀ index, (s.replace r next).tended index =
      if index = r.index then next.toList.length else s.tended index := fun index => by
    have hcount := tended_replace hmem next index
    by_cases hi : index = r.index
    · subst hi
      rw [tends_iff.mpr ⟨rfl, hactive⟩, hone] at hcount
      cases next with
      | none => simpa using hcount
      | some r' =>
        obtain ⟨hindex, hr', -⟩ := hnext r' rfl
        simpa [tends_iff.mpr ⟨hindex, hr'⟩] using hcount
    · have hidle : r.tends index = false := by simp [Replacement.tends, Ne.symm hi]
      have hno : next.any (·.tends index) = false := by
        cases next with
        | none => rfl
        | some r' => simp [Replacement.tends, (hnext r' rfl).1, Ne.symm hi]
      rw [hidle, hno] at hcount
      rw [if_neg hi]
      exact hcount
  refine ⟨h.initializing, fun index hi => ?_, h.occupied, fun index hi => ?_,
    fun index hj hempty => ?_, fun r' hmem' hr' => ?_⟩
  · have hne : index ≠ r.index := by
      rintro rfl
      have := (h.unopened r.index hi).2
      omega
    rw [htended, if_neg hne]
    exact h.unopened index hi
  · have hne : index ≠ r.index := by
      rintro rfl
      simp [show (s.replace r next).slot r.index = s.slot r.index from rfl, hnone] at hi
    rw [htended, if_neg hne]
    exact h.held index hi
  · by_cases hi : index = r.index
    · subst hi
      rw [htended, if_pos rfl]
      cases next with
      | none => exact .inr (.inr ⟨rfl, hgives rfl⟩)
      | some r' => exact .inr (.inl rfl)
    · rw [htended, if_neg hi, hfailures index hi]
      exact h.empty index hj hempty
  · rcases List.mem_append.mp hmem' with hmem' | hmem'
    · obtain ⟨hindex, -, hle, hcount⟩ := hnext r' (Option.mem_toList.mp hmem')
      rw [hindex]
      exact ⟨hlt, hle, hcount⟩
    · rw [hfailures _ (h.rest hmem hactive hmem' hr')]
      exact h.paced r' (List.mem_of_mem_erase hmem') hr'

/-- A channel opens for a slot, in `initialize`. -/
theorem Tended.opens {failures : Nat → Nat} (h : Tended size s failures) {opens : List Open}
    {index channel : Nat} (hclosed : s.closed = false) (hinit : s.initializing = some opens)
    (hpending : opens[index]? = some .pending) (hfresh : channel ∉ s.opened) :
    Tended size (State.createPoolChannel { s with
      initializing := some (opens.set index .fulfilled) } index channel) failures := by
  have hun : s.unopened index := ⟨opens, hinit, .inl hpending⟩
  obtain ⟨hslot, hidle⟩ := h.unopened index hun
  have hlength := h.initializing opens hinit
  have hlt : index < opens.length := (List.getElem?_eq_some_iff.mp hpending).1
  refine h.fill hfresh (hlength ▸ hlt) (if_neg (by simp [hclosed])) rfl (fun opens' ho => ?_)
    (fun j => ?_) hslot (fun j => ?_) fun r hmem _ => hmem
  · cases ho
    exact List.length_set.trans hlength
  · have hset : ∀ o, (opens.set index .fulfilled)[j]? = some o ↔
        if j = index then o = .fulfilled else opens[j]? = some o := fun o => by
      by_cases hj : j = index
      · subst hj
        simp [hlt, eq_comm]
      · rw [List.getElem?_set_ne (Ne.symm hj), if_neg hj]
    constructor
    · rintro ⟨opens', ho, hj⟩
      cases ho
      by_cases hji : j = index
      · simp only [hset, if_pos hji, reduceCtorEq, or_self] at hj
      · exact ⟨hji, opens, hinit, by simpa only [hset, if_neg hji] using hj⟩
    · rintro ⟨hji, opens', ho, hj⟩
      cases hinit.symm.trans ho
      exact ⟨_, rfl, by simpa only [hset, if_neg hji] using hj⟩
  · by_cases hj : j = index
    · subst hj
      exact hidle.trans (if_pos rfl).symm
    · exact (if_neg hj).symm

/-- An open of `initialize` fails. -/
theorem Tended.openFails {failures : Nat → Nat} (h : Tended size s failures) {opens : List Open}
    {index : Nat} (hinit : s.initializing = some opens)
    (hpending : opens[index]? = some .pending) :
    Tended size { s with initializing := some (opens.set index .rejected) } failures := by
  have hlt : index < opens.length := (List.getElem?_eq_some_iff.mp hpending).1
  have hun : ∀ j, State.unopened { s with initializing := some (opens.set index .rejected) } j ↔
      s.unopened j := fun j => by
    by_cases hj : j = index
    · subst hj
      exact iff_of_true ⟨_, rfl, .inr (by simp [hlt])⟩ ⟨opens, hinit, .inl hpending⟩
    · constructor
      · rintro ⟨opens', ho, hopen⟩
        cases ho
        exact ⟨opens, hinit, by simpa only [List.getElem?_set_ne (Ne.symm hj)] using hopen⟩
      · rintro ⟨opens', ho, hopen⟩
        cases hinit.symm.trans ho
        exact ⟨_, rfl, by simpa only [List.getElem?_set_ne (Ne.symm hj)] using hopen⟩
  refine ⟨fun opens' ho => ?_, fun j hj => h.unopened j ((hun j).mp hj), h.occupied, h.held,
    fun j hj hempty => ?_, h.paced⟩
  · cases ho
    exact List.length_set.trans (h.initializing opens hinit)
  · rw [hun]
    exact h.empty j hj hempty

/-- `initialize` returns: every slot has had its channel. -/
theorem Tended.initialized {failures : Nat → Nat} (h : Tended size s failures) {opens : List Open}
    (hinit : s.initializing = some opens) (hsettled : .pending ∉ opens)
    (hfulfilled : .rejected ∉ opens) :
    Tended size { s with initializing := none } failures := by
  have hnot : ∀ index, ¬ s.unopened index := by
    rintro index ⟨opens', ho, hopen | hopen⟩
    · cases hinit.symm.trans ho
      exact hsettled (List.mem_of_getElem? hopen)
    · cases hinit.symm.trans ho
      exact hfulfilled (List.mem_of_getElem? hopen)
  refine ⟨nofun, fun j ⟨_, ho, _⟩ => (by cases ho), h.occupied, h.held, fun j hj hempty => ?_,
    h.paced⟩
  exact .inr ((h.empty j hj hempty).resolve_left (hnot j))

theorem closed_close (s : State) : s.close.closed = true := by
  obtain ⟨opened, heq, -⟩ := closeChannels_frame s.held { s with
    closed := true
    closes := (s.held.filter fun channel =>
      (s.opened.get? channel).any fun r => r.live && !r.closing) :: s.closes }
  unfold State.close
  dsimp only
  rw [heq]

theorem Tended.emitClose {failures : Nat → Nat} (h : Tended size s failures) {channel : Nat}
    {r : Channel} (hclosed : s.closed = false) (hr : s.opened.get? channel = some r) :
    Tended size (s.emitClose channel r)
      (tally s (s.emitClose channel r) (.emitsClose channel) failures) := by
  obtain ⟨role, live, closing⟩ := r
  -- a channel that holds no slot is lost without effect
  have hlost : ∀ {s' : State} (role : Role), (∀ index, s.slot index ≠ some channel) →
      s'.channels = s.channels → s'.initializing = s.initializing →
      s'.replacements = s.replacements →
      s'.opened = s.opened.set channel ⟨role, false, closing⟩ →
      Tended size s' (tally s s' (.emitsClose channel) failures) :=
    fun {s'} role hnot hchannels hinit hreplacements hopened => by
      have hslot : ∀ index, s'.slot index = s.slot index := fun index => by
        simp only [State.slot, hchannels]
      have htally : tally s s' (.emitsClose channel) failures = failures :=
        tally_eq (fun index hne => hslot index ▸ hne) fun _ => nofun
      rw [htally]
      refine h.same hchannels hinit (fun index => by simp only [State.tended, hreplacements])
        (fun r' hmem _ => hreplacements ▸ hmem) fun k index => ?_
      rw [serves_set hopened]
      split
      · next hk =>
        subst hk
        exact iff_of_false (by simp) fun hs => hnot index ((h.occupied index k).mpr hs)
      · rfl
  cases role with
  | dedicated id =>
    refine hlost (.dedicated id) (fun index hslot => ?_) rfl rfl rfl rfl
    obtain ⟨r', hr', hrole', -⟩ := (h.occupied index channel).mp hslot
    cases hr.symm.trans hr'
    cases hrole'
  | slot index =>
    by_cases hslot : s.slot index = some channel
    · have hemit : s.emitClose channel ⟨.slot index, live, closing⟩ = { s with
          opened := s.opened.set channel ⟨.slot index, false, closing⟩
          channels := setSlot s.channels index none
          replacements := ⟨index, 1, .opening⟩ :: s.replacements } := by
        unfold State.emitClose
        dsimp only
        rw [if_neg]
        rintro (hc | hne)
        · cases hclosed.symm.trans hc
        · exact hne hslot
      rw [hemit]
      have hslots : ∀ j, State.slot { s with
          opened := s.opened.set channel ⟨.slot index, false, closing⟩
          channels := setSlot s.channels index none
          replacements := ⟨index, 1, .opening⟩ :: s.replacements } j =
          if j = index then none else s.slot j := fun j => slot_setSlot _ _ _ _
      refine h.lose hslot rfl rfl rfl rfl ?_ fun j hj => ?_
      · unfold tally
        rw [if_pos ⟨by simp [hslot], by rw [hslots, if_pos rfl]⟩]
      · unfold tally
        rw [if_neg]
        rintro ⟨hsome, hnone⟩
        rw [hslots, if_neg hj] at hnone
        simp [hnone] at hsome
    · have hother : ∀ j, s.slot j ≠ some channel := fun j hj => by
        obtain ⟨r', hr', hrole', -⟩ := (h.occupied j channel).mp hj
        cases hr.symm.trans hr'
        cases hrole'
        exact hslot hj
      have hemit : s.emitClose channel ⟨.slot index, live, closing⟩ =
          { s with opened := s.opened.set channel ⟨.slot index, false, closing⟩ } := by
        unfold State.emitClose
        exact if_pos (.inr hslot)
      rw [hemit]
      exact hlost (.slot index) hother rfl rfl rfl rfl

/-- A loop's open succeeds: the channel takes the slot, and the loop has found it. -/
theorem Tended.replacementOpens {failures : Nat → Nat} (h : Tended size s failures)
    {index attempt channel : Nat} (hclosed : s.closed = false)
    (hmem : ⟨index, attempt, .opening⟩ ∈ s.replacements) (hfresh : channel ∉ s.opened) :
    Tended size ((s.createPoolChannel index channel).replace ⟨index, attempt, .opening⟩
      (some ⟨index, attempt, .opened channel⟩)) failures := by
  obtain ⟨hslot, hone⟩ := h.alone hmem rfl
  have hcount := tended_replace hmem (some ⟨index, attempt, .opened channel⟩)
  refine h.fill hfresh (h.paced _ hmem rfl).1 (if_neg (by simp [hclosed])) rfl h.initializing
    (fun j => ⟨fun hj => ⟨?_, hj⟩, And.right⟩) hslot (fun j => ?_) fun r hr hactive => ?_
  · rintro rfl
    have := (h.unopened j hj).2
    dsimp only at hone
    omega
  · have hj := hcount j
    by_cases hji : j = index
    · subst hji
      dsimp only at hone
      simp only [Replacement.tends, Replacement.active, decide_true, Bool.and_true, hone,
        Option.any_some, Bool.and_false, Bool.toNat_true, Bool.toNat_false] at hj
      exact (Nat.succ.inj hj).trans (if_pos rfl).symm
    · simp only [Replacement.tends, Ne.symm hji, decide_false, Bool.false_and,
        Option.any_some, Bool.toNat_false, Nat.add_zero] at hj
      exact hj.trans (if_neg hji).symm
  · rcases List.mem_append.mp hr with hr | hr
    · cases Option.mem_toList.mp hr
      cases hactive
    · exact List.mem_of_mem_erase hr

/-- A loop's open fails, which the slot counts. -/
theorem Tended.replacementFails {failures : Nat → Nat} (h : Tended size s failures)
    {index attempt : Nat} (hmem : ⟨index, attempt, .opening⟩ ∈ s.replacements) :
    let s' := s.replace ⟨index, attempt, .opening⟩ (some ⟨index, attempt, .sleeping⟩)
    Tended size s' (tally s s' (.replacementFails ⟨index, attempt, .opening⟩) failures) := by
  have htally : ∀ j, tally s (s.replace ⟨index, attempt, .opening⟩
      (some ⟨index, attempt, .sleeping⟩)) (.replacementFails ⟨index, attempt, .opening⟩)
      failures j = if index = j then failures j + 1 else failures j := fun j => by
    unfold tally
    rw [if_neg]
    rintro ⟨hsome, hnone⟩
    rw [show (s.replace ⟨index, attempt, .opening⟩ (some ⟨index, attempt, .sleeping⟩)).slot j =
      s.slot j from rfl] at hnone
    simp [hnone] at hsome
  obtain ⟨-, hle, hcount⟩ := h.paced _ hmem rfl
  refine h.turn hmem rfl (fun r' hr' => ?_) nofun fun j hj => ?_
  · cases hr'
    refine ⟨rfl, rfl, hle, ?_⟩
    rw [htally, if_pos rfl]
    exact hcount
  · rw [htally, if_neg (Ne.symm hj)]

/-- A loop wakes: it opens again, or gives the slot up. -/
theorem Tended.slept {failures : Nat → Nat} (h : Tended size s failures) {index attempt : Nat}
    (hclosed : s.closed = false) (hmem : ⟨index, attempt, .sleeping⟩ ∈ s.replacements) :
    Tended size (s.slept ⟨index, attempt, .sleeping⟩) failures := by
  obtain ⟨-, hle, hcount⟩ := h.paced _ hmem rfl
  have hfive : failures index = attempt := hcount
  unfold State.slept
  refine h.turn hmem rfl (fun r' hr' => ?_) (fun hnone => ?_) fun _ _ => rfl
  · split at hr'
    · next hmore =>
      cases hr'
      refine ⟨rfl, rfl, hmore.1, ?_⟩
      dsimp only
      rw [hfive, if_pos rfl]
    · cases hr'
  · split at hnone
    · cases hnone
    · next hmore =>
      have hover : ¬ attempt + 1 ≤ maxReplaceAttempts := fun hlt => hmore ⟨hlt, hclosed⟩
      have hle : attempt ≤ maxReplaceAttempts := hle
      dsimp only
      omega

/-- One step of an open pool. -/
theorem Steps.tended {event : Event} (H : Steps s event s') {failures : Nat → Nat}
    (hcloses : s.closes ≠ [] → s.closed) (hopen : s'.closed = false) (hclosed : s.closed = false)
    (h : Tended size s failures) : Tended size s' (tally s s' event failures) := by
  -- a step that leaves the slots and their loops alone
  have hkeep : ∀ {s'' : State} {event : Event}, (∀ r, event ≠ .replacementFails r) →
      s''.channels = s.channels → Tended size s'' failures →
      Tended size s'' (tally s s'' event failures) := fun {s'' event} hevent hchannels hk => by
    rwa [tally_eq (fun index hne => ?_) hevent]
    simpa only [State.slot, hchannels] using hne
  cases H with
  | @opens opens index channel hinit hpending hfresh =>
    rw [tally_eq (fun j hne => ?_) ?_]
    · exact h.opens hclosed hinit hpending hfresh
    · exact fun _ => nofun
    · simp only [State.slot, State.createPoolChannel, hclosed, Bool.false_eq_true, if_false,
        slot_setSlot]
      split
      · exact nofun
      · exact hne
  | openFails hinit hpending => exact hkeep nofun rfl (h.openFails hinit hpending)
  | @initialized opens hinit hsettled =>
    unfold State.initialized at hopen ⊢
    dsimp only at hopen ⊢
    split
    · next hrejected =>
      rw [if_pos hrejected, closed_close] at hopen
      cases hopen
    · next hfulfilled => exact hkeep nofun rfl (h.initialized hinit hsettled hfulfilled)
  | emitsClose hr => exact h.emitClose hclosed hr
  | @replacementOpens index attempt channel hmem hfresh =>
    rw [tally_eq (fun j hne => ?_) ?_]
    · exact h.replacementOpens hclosed hmem hfresh
    · exact fun _ => nofun
    · simp only [State.slot, State.replace, State.createPoolChannel, hclosed, Bool.false_eq_true,
        if_false, slot_setSlot]
      split
      · exact nofun
      · exact hne
  | replacementFails hmem => exact h.replacementFails hmem
  | @replaced index attempt channel hmem =>
    unfold State.replaced
    rw [if_neg (by simp [hclosed])]
    exact hkeep nofun rfl (h.passes hmem rfl nofun)
  | slept hmem => exact hkeep nofun rfl (h.slept hclosed hmem)
  | discarded hmem hdead => exact hkeep nofun rfl (h.passes hmem rfl nofun)
  | getChannel =>
    obtain ⟨index, heq⟩ := getChannel_frame s
    rw [heq]
    exact hkeep nofun rfl (h.same rfl rfl (fun _ => rfl) (fun _ hmem _ => hmem) fun _ _ => .rfl)
  | getDedicatedChannel =>
    unfold State.getDedicatedChannel
    split
    · exact hkeep nofun rfl (h.same rfl rfl (fun _ => rfl) (fun _ hmem _ => hmem) fun _ _ => .rfl)
    · exact hkeep nofun rfl (h.same rfl rfl (fun _ => rfl) (fun _ hmem _ => hmem) fun _ _ => .rfl)
  | @dedicatedOpens id channel hmem hfresh =>
    refine hkeep nofun rfl (h.same rfl rfl (fun _ => rfl) (fun _ hmem _ => hmem) fun k index => ?_)
    rw [serves_set (r := ⟨.dedicated id, true, false⟩) rfl]
    split
    · next hk =>
      subst hk
      refine iff_of_false nofun fun hs => ?_
      exact slot_none_of_unserved h hfresh index ((h.occupied index k).mpr hs)
    · rfl
  | dedicatedFails =>
    exact hkeep nofun rfl (h.same rfl rfl (fun _ => rfl) (fun _ hmem _ => hmem) fun _ _ => .rfl)
  | @releaseDedicatedChannel id =>
    unfold State.releaseDedicatedChannel
    split
    · exact hkeep nofun rfl h
    · next channel hid =>
      obtain ⟨opened, heq, hget⟩ := closeChannel_frame
        { s with dedicatedChannels := s.dedicatedChannels.erase id } channel
      rw [heq]
      exact hkeep nofun rfl (h.same rfl rfl (fun _ => rfl) (fun _ hmem _ => hmem)
        (serves_close hget rfl))
  | close =>
    cases hopen.symm.trans (closed_close s)
  | closeResumes hmem hdead =>
    cases hclosed.symm.trans (hcloses (List.ne_nil_of_mem hmem))

/-- A closed pool stays closed, and only `close` awaits closes. -/
theorem Steps.closed {event : Event} (H : Steps s event s') :
    (s.closed → s'.closed) ∧ ((s.closes ≠ [] → s.closed) → s'.closes ≠ [] → s'.closed) := by
  have hclose : ∀ {s₀ s₁ : State}, (s₀.closed → s₁.close.closed) ∧
      ((s₀.closes ≠ [] → s₀.closed) → s₁.close.closes ≠ [] → s₁.close.closed) :=
    fun {_ s₁} => ⟨fun _ => closed_close s₁, fun _ _ => closed_close s₁⟩
  have hframe : ∀ {s₁ : State}, s₁.closed = s.closed → s₁.closes = s.closes →
      (s.closed → s₁.closed) ∧ ((s.closes ≠ [] → s.closed) → s₁.closes ≠ [] → s₁.closed) :=
    fun hclosed hcloses => ⟨fun h => hclosed.trans h, fun h hc => hclosed.trans (h (hcloses ▸ hc))⟩
  cases H with
  | opens => exact hframe rfl rfl
  | openFails => exact hframe rfl rfl
  | initialized =>
    unfold State.initialized
    dsimp only
    split
    · exact hclose
    · exact hframe rfl rfl
  | @emitsClose channel r hr =>
    obtain ⟨role, live, closing⟩ := r
    cases role with
    | slot index =>
      unfold State.emitClose
      dsimp only
      split
      · exact hframe rfl rfl
      · exact hframe rfl rfl
    | dedicated id => exact hframe rfl rfl
  | replacementOpens => exact hframe rfl rfl
  | replacementFails => exact hframe rfl rfl
  | @replaced index attempt channel hmem =>
    unfold State.replaced
    split
    · obtain ⟨opened, heq, -⟩ := closeChannel_frame s channel
      rw [heq]
      exact hframe rfl rfl
    · exact hframe rfl rfl
  | slept => exact hframe rfl rfl
  | discarded => exact hframe rfl rfl
  | getChannel =>
    obtain ⟨index, heq⟩ := getChannel_frame s
    rw [heq]
    exact hframe rfl rfl
  | getDedicatedChannel =>
    unfold State.getDedicatedChannel
    split
    · exact hframe rfl rfl
    · exact hframe rfl rfl
  | dedicatedOpens => exact hframe rfl rfl
  | dedicatedFails => exact hframe rfl rfl
  | @releaseDedicatedChannel id =>
    unfold State.releaseDedicatedChannel
    split
    · exact hframe rfl rfl
    · next channel hid =>
      obtain ⟨opened, heq, -⟩ := closeChannel_frame
        { s with dedicatedChannels := s.dedicatedChannels.erase id } channel
      rw [heq]
      exact hframe rfl rfl
  | close => exact hclose
  | @closeResumes awaited hmem hdead =>
    exact ⟨id, fun h _ => h (List.ne_nil_of_mem hmem)⟩

theorem Slots.counted {w w' : Counted} {event : Event} (h : Slots size w)
    (hs : counted w event = some w') : Slots size w' := by
  obtain ⟨s', hstep, rfl⟩ := Option.map_eq_some_iff.mp hs
  have H := step_cases hstep
  refine ⟨H.closed.2 h.closes, fun hopen => ?_⟩
  have hclosed : w.pool.closed = false := Bool.eq_false_iff.mpr fun hc => by
    cases hopen.symm.trans (H.closed.1 hc)
  exact H.tended h.closes hopen hclosed (h.tended hclosed)

/-- Of the loops of a slot only the one that has not found a channel can open one. -/
theorem openers_le_tended (s : State) (index : Nat) : s.openers index ≤ s.tended index := by
  refine List.countP_mono_left fun r _ h => ?_
  obtain ⟨hindex, hopen⟩ := Bool.and_eq_true_iff.mp h
  refine tends_iff.mpr ⟨of_decide_eq_true hindex, ?_⟩
  obtain ⟨index, attempt, stage⟩ := r
  cases stage with
  | opening => rfl
  | sleeping => rfl
  | opened => cases hopen
  | discarding => cases hopen

theorem Tended.openers {failures : Nat → Nat} (h : Tended size s failures) {index : Nat}
    (hone : s.tended index = 1) : s.slot index = none ∧ (s.openers index = 1 ∨
      s.openers index = 0 ∧ failures index = maxReplaceAttempts) := by
  obtain ⟨r, hmem, hr⟩ := List.countP_pos_iff.mp (by rw [← State.tended, hone]; exact Nat.one_pos)
  obtain ⟨rfl, hactive⟩ := tends_iff.mp hr
  refine ⟨(h.alone hmem hactive).1, ?_⟩
  have hle := openers_le_tended s r.index
  rcases Nat.eq_zero_or_pos (s.openers r.index) with hzero | hpos
  · refine .inr ⟨hzero, ?_⟩
    obtain ⟨-, hattempt, hcount⟩ := h.paced r hmem hactive
    have hcannot := List.countP_eq_zero.mp hzero r hmem
    obtain ⟨index, attempt, stage⟩ := r
    cases stage with
    | opening => simp [Replacement.canOpen] at hcannot
    | sleeping =>
      simp only [decide_true, Replacement.canOpen, Bool.true_and, decide_eq_true_eq] at hcannot
      have hcount : failures index = attempt := hcount
      dsimp only at hattempt ⊢
      omega
    | opened => cases hactive
    | discarding => cases hactive
  · exact .inl (by omega)

/-- The rotation only finds what is in a slot. -/
theorem slot_of_rotate (s : State) {turns index channel : Nat}
    (h : (s.rotate turns index).1 = some channel) : ∃ j, s.slot j = some channel := by
  induction turns generalizing index with
  | zero => cases h
  | succ turns ih =>
    rw [State.rotate] at h
    split at h
    · next found hslot =>
      cases h
      exact ⟨index, hslot⟩
    · exact ih h

theorem slot_of_getChannel {channel : Nat} (h : s.getChannel.1 = .ok channel) :
    ∃ index, s.slot index = some channel := by
  unfold State.getChannel at h
  split at h
  · cases h
  · split at h
    · next found index hrotate =>
      cases h
      exact slot_of_rotate s (congrArg Prod.fst hrotate)
    · cases h

theorem live_of_slot {failures : Nat → Nat} (h : Tended size s failures) {index channel : Nat}
    (hslot : s.slot index = some channel) : s.live channel := by
  obtain ⟨r, hr, -, hlive⟩ := (h.occupied index channel).mp hslot
  simpa [State.live, hr] using hlive

/-- Each slot of a pool that is initialized and not closed is live, being refilled, or given up
after five failed opens, whatever channels are lost and whatever opens fail. -/
theorem slots_tended {w : Counted} (hr : Reach counted anyStep (countedStart size) w)
    (hinit : w.pool.initializing = none) (hopen : w.pool.closed = false) :
    SlotsTended size w := by
  have hslots : Slots size w := hr.invariant (slots_start size) fun h _ hs => h.counted hs
  have h := hslots.tended hopen
  refine ⟨fun index hlt => ?_, fun channel r index hr hrole hlive =>
    (h.occupied index channel).mpr ⟨r, hr, hrole, hlive⟩, fun channel hget => ?_⟩
  · cases hslot : w.pool.slot index with
    | some channel => exact .inl ⟨channel, rfl, live_of_slot h hslot⟩
    | none =>
      have hnot : ¬ w.pool.unopened index := fun ⟨_, ho, _⟩ => by cases hinit.symm.trans ho
      rcases (h.empty index hlt hslot).resolve_left hnot with hone | ⟨hzero, hfive⟩
      · rcases (h.openers hone).2 with hopens | hgaveUp
        · exact .inr (.inl ⟨rfl, hopens⟩)
        · exact .inr (.inr ⟨rfl, hgaveUp⟩)
      · have hle := openers_le_tended w.pool index
        exact .inr (.inr ⟨rfl, by omega, hfive⟩)
  · obtain ⟨index, hslot⟩ := slot_of_getChannel hget
    exact live_of_slot h hslot

/-! ## Runs -/

/-- A replacement is lost before its loop resumes, and the next one is installed. -/
theorem slots_tended_run : ∃ w, Reach counted anyStep (countedStart 1) w ∧
    w.pool.initializing = none ∧ w.pool.closed = false ∧ w.pool.slot 0 = some 2 ∧
      SlotsTended 1 w := by
  have hrun : (run counted anyStep (countedStart 1) [.opens 0 0, .initialized, .emitsClose 0,
      .replacementOpens ⟨0, 1, .opening⟩ 1, .emitsClose 1, .emitsClose 0,
      .replacementResumes ⟨0, 1, .opened 1⟩, .replacementFails ⟨0, 1, .opening⟩,
      .replacementResumes ⟨0, 1, .sleeping⟩, .replacementOpens ⟨0, 2, .opening⟩ 2]).any (fun w =>
        decide (w.pool.initializing = none ∧ w.pool.closed = false ∧ w.pool.slot 0 = some 2)) := by
    decide +kernel
  obtain ⟨w, hw, h⟩ := (Option.any_eq_true _ _).mp hrun
  have hr := reach_of_run hw
  obtain ⟨hinit, hopen, hslot⟩ := of_decide_eq_true h
  exact ⟨w, hr, hinit, hopen, hslot, slots_tended hr hinit hopen⟩

end ChannelPool
end RabbitMQ
