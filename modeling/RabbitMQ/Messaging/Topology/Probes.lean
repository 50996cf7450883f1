import RabbitMQ.Connection.ChannelPool.Owners
import RabbitMQ.Connection.ChannelPool.Rotation
import RabbitMQ.Lib.Transition

/-! The probe for the delay plugin. It is expected to fail on a broker without the plugin, and to
lose its channel then, so each call has a channel of its own: one that no other call and no
publisher uses, and that is closed when the call is over. -/

namespace RabbitMQ
namespace DelayProbe

open Transition
open ChannelPool (At Place)

/-- The ids that dedicated channels are asked for under. -/
structure Names where
  /-- `delay-probe-${n}` -/
  probeId : Nat → Nat
  /-- the number of the probe that an id belongs to, if it is not the id of a consumer or of the
  reply route -/
  owner : Nat → Option Nat
  owner_eq : ∀ id n, owner id = some n ↔ id = probeId n

/-- What `isDelayPluginEnabled` settles with. -/
abbrev Answer := Except String Bool

inductive Stage where
  /-- `await channelPool.getDedicatedChannel(probeId)` -/
  | opening
  /-- `await channel.assertExchange(...)` -/
  | asserting (channel : Nat)
  /-- `await channel.deleteExchange(...)` -/
  | deleting (channel : Nat)
  /-- `await release()`, with the channel whose close it awaits -/
  | releasing (awaited : Option Nat) (answer : Answer)
  | settled (answer : Answer)
  deriving DecidableEq

structure State where
  /-- `#probeSequence` -/
  probeSequence : Nat
  /-- the calls of `isDelayPluginEnabled`, by their number -/
  probes : OrderedMap Nat Stage
  pool : ChannelPool.State

def start (size : Nat) : State := ⟨0, .empty, ChannelPool.start size⟩

/-- `error.message.includes('exchange type')` -/
def unknownType (message : String) : Bool :=
  decide ("exchange type".toList <:+: message.toList)

/-- What a refusal comes to. -/
def refusal (message : String) : Answer := if unknownType message then .ok false else .error message

namespace State

def move (s : State) (n : Nat) (stage : Stage) : State := { s with probes := s.probes.set n stage }

/-- `#probeChannel`, up to its await. -/
def probeChannel (N : Names) (s : State) : State :=
  let n := s.probeSequence + 1
  { probeSequence := n
    probes := s.probes.set n (match s.pool.dedicatedChannels.get? (N.probeId n) with
      | some channel => .asserting channel
      | none => .opening)
    pool := s.pool.getDedicatedChannel (N.probeId n) }

/-- `release()`, up to its await. -/
def release (N : Names) (s : State) (n : Nat) (answer : Answer) : State :=
  let awaited := (s.pool.dedicatedChannels.get? (N.probeId n)).filter fun channel =>
    (s.pool.opened.get? channel).any fun r => r.live && !r.closing
  { s with pool := s.pool.releaseDedicatedChannel (N.probeId n) }.move n (.releasing awaited answer)

end State

inductive Event where
  /-- a call of `isDelayPluginEnabled` -/
  | probes
  | opens (n channel : Nat)
  | openFails (n : Nat) (message : String)
  | asserted (n : Nat)
  | deleted (n : Nat)
  /-- the broker refuses, or the channel is lost -/
  | refused (n : Nat) (message : String)
  | released (n : Nat)
  /-- whatever else happens in the pool -/
  | pool (event : ChannelPool.Event)
  deriving DecidableEq

def step (N : Names) (s : State) : Event → Option State
  | .probes => some (s.probeChannel N)
  | .opens n channel =>
    match s.probes.get? n with
    | some .opening => (ChannelPool.step s.pool (.dedicatedOpens (N.probeId n) channel)).map
        fun pool => { s with pool }.move n (.asserting channel)
    | _ => none
  | .openFails n message =>
    match s.probes.get? n with
    | some .opening => (ChannelPool.step s.pool (.dedicatedFails (N.probeId n))).map
        fun pool => { s with pool }.move n (.settled (.error message))
    | _ => none
  | .asserted n =>
    match s.probes.get? n with
    | some (.asserting channel) => some (s.move n (.deleting channel))
    | _ => none
  | .deleted n =>
    match s.probes.get? n with
    | some (.deleting _) => some (s.release N n (.ok true))
    | _ => none
  | .refused n message =>
    match s.probes.get? n with
    | some (.asserting _) | some (.deleting _) => some (s.release N n (refusal message))
    | _ => none
  | .released n =>
    match s.probes.get? n with
    | some (.releasing awaited answer) =>
      if awaited.all fun channel => !s.pool.live channel then some (s.move n (.settled answer))
      else none
    | _ => none
  | .pool event =>
    if (event.uses.bind N.owner).isSome then none
    else (ChannelPool.step s.pool event).map fun pool => { s with pool }

variable {N : Names} {s s' : State} {event : Event} {size : Nat}

/-- No channel of a probe lands on a pool that is closed. -/
def InTime (s : State) : Event → Prop
  | .opens _ _ => s.pool.closed = false
  | .probes | .openFails _ _ | .asserted _ | .deleted _ | .refused _ _ | .released _ | .pool _ => True

instance (s : State) (event : Event) : Decidable (InTime s event) :=
  match event with
  | .opens _ _ => inferInstanceAs (Decidable (s.pool.closed = false))
  | .probes | .openFails _ _ | .asserted _ | .deleted _ | .refused _ _ | .released _ | .pool _ =>
    instDecidableTrue

/-- The call works with the channel. -/
def State.Uses (s : State) (n channel : Nat) : Prop :=
  s.probes.get? n = some (.asserting channel) ∨ s.probes.get? n = some (.deleting channel)

/-! ## Where a call is -/

/-- What a stage says of the id of the call. -/
inductive Stands : Option Stage → Place → Prop
  | unasked : Stands none .absent
  | opening : Stands (some .opening) .requested
  | asserting {channel} : Stands (some (.asserting channel)) (.registered channel)
  | assertingLost {channel} : Stands (some (.asserting channel)) (.left channel)
  | deleting {channel} : Stands (some (.deleting channel)) (.registered channel)
  | deletingLost {channel} : Stands (some (.deleting channel)) (.left channel)
  | releasing {awaited answer channel} : Stands (some (.releasing awaited answer)) (.left channel)
  | failed {answer} : Stands (some (.settled answer)) .absent
  | settled {answer channel} : Stands (some (.settled answer)) (.left channel)

theorem Stands.dropped {stage : Option Stage} {place : Place} (h : Stands stage place) :
    Stands stage place.dropped := by
  cases h with
  | unasked => exact .unasked
  | opening => exact .opening
  | asserting => exact .assertingLost
  | assertingLost => exact .assertingLost
  | deleting => exact .deletingLost
  | deletingLost => exact .deletingLost
  | releasing => exact .releasing
  | failed => exact .failed
  | settled => exact .settled

/-- Each call has the id of its own number. -/
structure Apart (N : Names) (s : State) : Prop where
  unasked : ∀ n, s.probeSequence < n → s.probes.get? n = none
  stands : ∀ n, ∃ place, At s.pool (N.probeId n) place ∧ Stands (s.probes.get? n) place

theorem apart_start (N : Names) (size : Nat) : Apart N (start size) :=
  ⟨fun _ _ => rfl, fun _ => ⟨.absent, ChannelPool.at_start size _, .unasked⟩⟩

theorem probeId_injective (N : Names) {n m : Nat} (h : N.probeId n = N.probeId m) : n = m := by
  have hn := (N.owner_eq (N.probeId n) n).mpr rfl
  have hm := (N.owner_eq (N.probeId n) m).mpr h
  exact Option.some.inj (hn.symm.trans hm)

/-- The pool takes a step that is not about the id of a call. -/
theorem Apart.others (h : Apart N s) {poolEvent : ChannelPool.Event} {pool : ChannelPool.State}
    (hs : ChannelPool.Steps s.pool poolEvent pool) (n : Nat)
    (huses : poolEvent.uses ≠ some (N.probeId n)) :
    ∃ place, At pool (N.probeId n) place ∧ Stands (s.probes.get? n) place := by
  obtain ⟨place, hat, hstands⟩ := h.stands n
  rcases hs.at hat huses with hat | hat
  · exact ⟨place, hat, hstands⟩
  · exact ⟨place.dropped, hat, hstands.dropped⟩

/-- One call moves on, and the pool takes a step for it. -/
theorem Apart.moved (h : Apart N s) {n probeSequence : Nat} {stage : Stage}
    {pool : ChannelPool.State} {poolEvent : ChannelPool.Event}
    (hs : ChannelPool.Steps s.pool poolEvent pool) (huses : poolEvent.uses = some (N.probeId n))
    (hsequence : s.probeSequence ≤ probeSequence) (hn : n ≤ probeSequence) {place : Place}
    (hat : At pool (N.probeId n) place) (hstands : Stands (some stage) place) :
    Apart N ⟨probeSequence, s.probes.set n stage, pool⟩ := by
  refine ⟨fun m (hm : probeSequence < m) => ?_, fun m => ?_⟩
  · dsimp only
    rw [OrderedMap.get?_set, if_neg (by omega)]
    exact h.unasked m (by omega)
  · by_cases hmn : m = n
    · subst hmn
      refine ⟨place, hat, ?_⟩
      rw [OrderedMap.get?_set_self]
      exact hstands
    · dsimp only
      rw [OrderedMap.get?_set, if_neg hmn]
      refine h.others hs m fun heq => hmn ?_
      exact probeId_injective N (Option.some.inj (heq.symm.trans huses))

/-- One call moves on, and the pool stays as it is. -/
theorem Apart.still (h : Apart N s) {n : Nat} {stage stage' : Stage}
    (hstage : s.probes.get? n = some stage)
    (hstands : ∀ {place}, Stands (some stage) place → Stands (some stage') place) :
    Apart N (s.move n stage') := by
  refine ⟨fun m hm => ?_, fun m => ?_⟩
  · dsimp only [State.move]
    rw [OrderedMap.get?_set]
    split
    · next heq =>
      subst heq
      cases (h.unasked m hm).symm.trans hstage
    · exact h.unasked m hm
  · obtain ⟨place, hat, hold⟩ := h.stands m
    refine ⟨place, hat, ?_⟩
    dsimp only [State.move]
    rw [OrderedMap.get?_set]
    split
    · next heq =>
      subst heq
      rw [hstage] at hold
      exact hstands hold
    · exact hold

/-- A call that was made has a number that was given out. -/
theorem Apart.numbered (h : Apart N s) {n : Nat} {stage : Stage}
    (hstage : s.probes.get? n = some stage) : n ≤ s.probeSequence := by
  by_contra hlt
  cases (h.unasked n (by omega)).symm.trans hstage

theorem Apart.probeChannel (h : Apart N s) : Apart N (s.probeChannel N) := by
  have hunasked := h.unasked (s.probeSequence + 1) (Nat.lt_succ_self _)
  obtain ⟨place, hat, hstands⟩ := h.stands (s.probeSequence + 1)
  rw [hunasked] at hstands
  cases hstands
  have hnone : s.pool.dedicatedChannels.get? (N.probeId (s.probeSequence + 1)) = none := hat.entry
  unfold State.probeChannel
  dsimp only
  rw [hnone]
  exact h.moved .getDedicatedChannel rfl (Nat.le_succ _) (Nat.le_refl _) hat.getDedicatedChannel
    .opening

/-- A call is done with its channel, and gives it up. -/
theorem Apart.release (h : Apart N s) {n channel : Nat} {stage : Stage}
    (hstage : s.probes.get? n = some stage)
    (hworks : stage = .asserting channel ∨ stage = .deleting channel) (answer : Answer) :
    Apart N (s.release N n answer) := by
  obtain ⟨place, hat, hstands⟩ := h.stands n
  rw [hstage] at hstands
  have hleft : place.dropped = .left channel := by
    rcases hworks with rfl | rfl
    · cases hstands <;> rfl
    · cases hstands <;> rfl
  have hat' := hat.releaseDedicatedChannel
  rw [hleft] at hat'
  exact h.moved .releaseDedicatedChannel rfl (Nat.le_refl _) (h.numbered hstage) hat' .releasing

theorem Apart.step (h : Apart N s) (hok : InTime s event) (hs : step N s event = some s') :
    Apart N s' := by
  cases event with
  | probes =>
    cases hs
    exact h.probeChannel
  | opens n channel =>
    dsimp only [DelayProbe.step] at hs
    split at hs
    · next hstage =>
      obtain ⟨pool, hpool, rfl⟩ := Option.map_eq_some_iff.mp hs
      obtain ⟨place, hat, hstands⟩ := h.stands n
      rw [hstage] at hstands
      cases hstands
      have hsteps := ChannelPool.step_cases hpool
      cases hsteps with
      | dedicatedOpens hmem hfresh =>
        exact h.moved (.dedicatedOpens hmem hfresh) rfl (Nat.le_refl _) (h.numbered hstage)
          (hat.dedicatedOpens channel hok) .asserting
    · cases hs
  | openFails n message =>
    dsimp only [DelayProbe.step] at hs
    split at hs
    · next hstage =>
      obtain ⟨pool, hpool, rfl⟩ := Option.map_eq_some_iff.mp hs
      obtain ⟨place, hat, hstands⟩ := h.stands n
      rw [hstage] at hstands
      cases hstands
      have hsteps := ChannelPool.step_cases hpool
      cases hsteps with
      | dedicatedFails hmem =>
        exact h.moved (.dedicatedFails hmem) rfl (Nat.le_refl _) (h.numbered hstage)
          hat.dedicatedFails .failed
    · cases hs
  | asserted n =>
    dsimp only [DelayProbe.step] at hs
    split at hs
    · next channel hstage =>
      cases hs
      refine h.still hstage fun hold => ?_
      cases hold with
      | asserting => exact .deleting
      | assertingLost => exact .deletingLost
    · cases hs
  | deleted n =>
    dsimp only [DelayProbe.step] at hs
    split at hs
    · next channel hstage =>
      cases hs
      exact h.release hstage (.inr rfl) _
    · cases hs
  | refused n message =>
    dsimp only [DelayProbe.step] at hs
    split at hs
    · next channel hstage =>
      cases hs
      exact h.release hstage (.inl rfl) _
    · next channel hstage =>
      cases hs
      exact h.release hstage (.inr rfl) _
    · cases hs
  | released n =>
    dsimp only [DelayProbe.step] at hs
    split at hs
    · next awaited answer hstage =>
      split at hs
      · cases hs
        refine h.still hstage fun hold => ?_
        cases hold
        exact .settled
      · cases hs
    · cases hs
  | pool poolEvent =>
    dsimp only [DelayProbe.step] at hs
    split at hs
    · cases hs
    · next hforeign =>
      obtain ⟨pool, hpool, rfl⟩ := Option.map_eq_some_iff.mp hs
      refine ⟨h.unasked, fun n => h.others (ChannelPool.step_cases hpool) n fun heq => hforeign ?_⟩
      rw [heq, Option.bind_some, (N.owner_eq _ n).mpr rfl]
      rfl

theorem apart_of_reach (hr : Reach (step N) InTime (start size) s) : Apart N s :=
  hr.invariant (apart_start N size) fun h hok hs => h.step hok hs

/-- The pool of a run is the pool of a run of its own. -/
theorem pool_of_reach (hr : Reach (step N) InTime (start size) s) :
    Reach ChannelPool.step anyStep (ChannelPool.start size) s.pool := by
  refine hr.project (f := State.pool) fun {s s' event} _ hs => ?_
  cases event with
  | probes =>
    cases hs
    exact .inr ⟨.getDedicatedChannel (N.probeId (s.probeSequence + 1)), trivial, rfl⟩
  | opens n channel =>
    dsimp only [step] at hs
    split at hs
    · obtain ⟨pool, hpool, rfl⟩ := Option.map_eq_some_iff.mp hs
      exact .inr ⟨_, trivial, hpool⟩
    · cases hs
  | openFails n message =>
    dsimp only [step] at hs
    split at hs
    · obtain ⟨pool, hpool, rfl⟩ := Option.map_eq_some_iff.mp hs
      exact .inr ⟨_, trivial, hpool⟩
    · cases hs
  | asserted n =>
    dsimp only [step] at hs
    split at hs
    · cases hs
      exact .inl rfl
    · cases hs
  | deleted n =>
    dsimp only [step] at hs
    split at hs
    · cases hs
      exact .inr ⟨.releaseDedicatedChannel (N.probeId n), trivial, rfl⟩
    · cases hs
  | refused n message =>
    dsimp only [step] at hs
    split at hs
    · cases hs
      exact .inr ⟨.releaseDedicatedChannel (N.probeId n), trivial, rfl⟩
    · cases hs
      exact .inr ⟨.releaseDedicatedChannel (N.probeId n), trivial, rfl⟩
    · cases hs
  | released n =>
    dsimp only [step] at hs
    split at hs
    · split at hs
      · cases hs
        exact .inl rfl
      · cases hs
    · cases hs
  | pool poolEvent =>
    dsimp only [step] at hs
    split at hs
    · cases hs
    · obtain ⟨pool, hpool, rfl⟩ := Option.map_eq_some_iff.mp hs
      exact .inr ⟨_, trivial, hpool⟩

/-- The channel a call works with was opened under the id of the call. -/
theorem Apart.uses (h : Apart N s) {n channel : Nat} (huses : s.Uses n channel) :
    ∃ r, s.pool.opened.get? channel = some r ∧ r.role = .dedicated (N.probeId n) := by
  obtain ⟨place, hat, hstands⟩ := h.stands n
  have howns : place.owns = some channel := by
    rcases huses with hstage | hstage
    · rw [hstage] at hstands
      cases hstands <;> rfl
    · rw [hstage] at hstands
      cases hstands <;> rfl
  exact hat.opened channel howns

/-- However many calls of `isDelayPluginEnabled` run at once, and whatever else happens in the pool:
no two of them work with one channel, none works with a channel that publishers are given, and a
channel that was opened for a call is closed, or being closed, unless the call still works with it. -/
theorem probes_isolated (hr : Reach (step N) InTime (start size) s) :
    (∀ n m channel, s.Uses n channel → s.Uses m channel → n = m) ∧
    (∀ n channel, s.Uses n channel → s.pool.closed = false → channel ∉ s.pool.inRotation) ∧
    (∀ n channel r, s.pool.opened.get? channel = some r → r.role = .dedicated (N.probeId n) →
      r.live → r.closing ∨ s.Uses n channel) := by
  have h := apart_of_reach hr
  refine ⟨fun n m channel hn hm => ?_, fun n channel hn hopen hmem => ?_,
    fun n channel r hr' hrole hlive => ?_⟩
  · obtain ⟨r, hr', hrole⟩ := h.uses hn
    obtain ⟨r', hr'', hrole'⟩ := h.uses hm
    cases hr'.symm.trans hr''
    exact probeId_injective N (ChannelPool.Role.dedicated.inj (hrole.symm.trans hrole'))
  · obtain ⟨r, hr', hrole⟩ := h.uses hn
    obtain ⟨hserves, -⟩ := ChannelPool.inRotation_of_reach (pool_of_reach hr) hopen
    obtain ⟨index, r', hr'', hslot, -⟩ := (hserves channel).mp hmem
    cases hr'.symm.trans hr''
    cases hrole.symm.trans hslot
  · obtain ⟨place, hat, hstands⟩ := h.stands n
    obtain ⟨howns, hout⟩ := hat.owned channel r hr' hrole
    rcases hout hlive with hclosing | ⟨hentry, -⟩
    · exact .inl hclosing
    · refine .inr ?_
      cases place with
      | registered channel' =>
        cases hentry
        generalize hstage : s.probes.get? n = stage at hstands
        cases hstands with
        | asserting => exact .inl hstage
        | deleting => exact .inr hstage
      | absent | requested | left => cases hentry

/-- The probes have the odd ids. -/
def odd : Names where
  probeId n := 2 * n + 1
  owner id := if id % 2 = 1 then some (id / 2) else none
  owner_eq id n := by
    split
    · rw [Option.some.injEq]
      omega
    · refine ⟨fun h => (by cases h), fun h => ?_⟩
      omega

/-- Three calls at once: the broker knows the type on the channel of the first, and refuses it on
that of the third while the second still waits. -/
theorem probes_isolated_concurrent : ∃ s : State,
    s.probes.get? 1 = some (.deleting 11) ∧ s.probes.get? 2 = some (.asserting 12) ∧
    s.probes.get? 3 = some (.releasing (some 13) (.ok false)) ∧
    (∀ m, s.Uses m 11 → 1 = m) ∧ 12 ∉ s.pool.inRotation ∧
    (∀ r, s.pool.opened.get? 13 = some r → r.role = .dedicated 7 → r.live →
      r.closing ∨ s.Uses 3 13) := by
  have hrun : (run (step odd) InTime (start 1) [.pool (.opens 0 10), .pool .initialized, .probes,
      .probes, .opens 2 12, .probes, .opens 1 11, .opens 3 13, .asserted 1,
      .refused 3 "PRECONDITION_FAILED - unknown exchange type 'x-delayed-message'"]).any
        (fun s => decide (s.probes.get? 1 = some (.deleting 11) ∧
          s.probes.get? 2 = some (.asserting 12) ∧
          s.probes.get? 3 = some (.releasing (some 13) (.ok false)) ∧ s.pool.closed = false)) := by
    decide +kernel
  obtain ⟨s, hs, hholds⟩ := (Option.any_eq_true _ _).mp hrun
  obtain ⟨hfirst, hsecond, hthird, hopen⟩ := of_decide_eq_true hholds
  obtain ⟨hone, hrotation, hclosed⟩ := probes_isolated (reach_of_run hs)
  exact ⟨s, hfirst, hsecond, hthird, fun m => hone 1 m 11 (.inr hfirst),
    hrotation 2 12 (.inl hsecond) hopen, hclosed 3 13⟩

end DelayProbe
end RabbitMQ
