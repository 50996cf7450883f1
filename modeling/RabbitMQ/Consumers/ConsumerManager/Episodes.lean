import RabbitMQ.Consumers.ConsumerManager.Epochs

/-! The episodes of a recovery, as they are seen.

A loop of `handleConsumerLoss` shows when it takes up a loss signal, when it runs the setup, and what
it reports in the end. An episode of a consumer on a pool begins with a signal when none is open, and
is open until its end is reported. -/

namespace RabbitMQ
namespace ConsumerManager

open Transition State

variable {s t : State} {event : Event} {consumer pool k l d : Nat}

/-- What is seen of a recovery. -/
inductive Sign where
  /-- a loss signal is taken up: `'consumerCancelled'` -/
  | cancelled
  /-- the setup is run -/
  | attempt
  /-- `'consumerRecovered'` -/
  | recovered
  /-- `'consumerLost'` -/
  | lost
  deriving DecidableEq

/-- A sign of a loop, with its consumer and the pool that it owns. -/
structure Mark where
  consumer : Nat
  pool : Option Nat
  sign : Sign
  deriving DecidableEq

namespace State

/-- The signs of `n` calls of `handleConsumerLoss`. -/
def losses (s : State) (consumer n : Nat) : List Mark :=
  if consumer ∈ s.activeConsumers ∧ !s.cancelled consumer then
    List.replicate n ⟨consumer, s.channelPool, .cancelled⟩
  else []

/-- The sign of a loop. -/
def sign (s : State) (l : Nat) (sign : Sign) : List Mark :=
  (s.loops[l]?).elim [] fun loop => [⟨loop.consumer, loop.ownedPool, sign⟩]

/-- What is seen of the recoveries in a step. -/
def marks (s : State) : Event → List Mark
  | .brokerCancels i => (s.consumes[i]?).elim [] fun c => s.losses c.consumer 1
  | .channelCloses channel =>
    (s.channels[channel]?).elim [] fun c =>
      if s.poolOpen ∧ s.consumers[c.owner]?.any (·.channel = some channel) then
        s.losses c.owner c.watchers
      else []
  | .loopWakes l =>
    (s.loops[l]?).elim [] fun loop =>
      if s.stillOurs loop ∧ s.epoch loop.consumer = loop.knownEpoch then s.sign l .attempt else []
  | .setupCompletes k =>
    (s.setups[k]?).elim [] fun setup =>
      match setup.caller with
      | .recovery l =>
        if setup.consumer ∉ s.activeConsumers ∨ s.cancelled setup.consumer then []
        else s.sign l .recovered
      | .subscribe | .recreation => []
  | .dropped d =>
    (s.drops[d]?).elim [] fun drop =>
      match drop.cause with
      | .recovery l => s.sign l .lost
      | .subscribe | .unsubscribe _ => []
  | _ => []

theorem sign_of {loop : Loop} (hl : s.loops[l]? = some loop) (sign : Sign) :
    s.sign l sign = [⟨loop.consumer, loop.ownedPool, sign⟩] := by
  rw [State.sign, hl]
  rfl

end State

/-- How often `'consumerCancelled'` was emitted, the setup was run and an end was reported. -/
structure Episode where
  cancelled : Nat
  attempts : Nat
  ended : Nat
  deriving DecidableEq

def Episode.note (e : Episode) : Sign → Episode
  | .cancelled => { e with cancelled := e.cancelled + 1 }
  | .attempt => { e with attempts := e.attempts + 1 }
  | .recovered | .lost => { e with ended := e.ended + 1 }

/-- The episodes after a sign, newest first: a signal begins one when the last one has ended. -/
def noted : List Episode → Sign → List Episode
  | e :: es, sign =>
    if sign = .cancelled ∧ e.ended ≠ 0 then ⟨1, 0, 0⟩ :: e :: es else e.note sign :: es
  | [], sign => [Episode.note ⟨0, 0, 0⟩ sign]

/-- The episodes of a consumer on a pool, newest first. -/
def episodes (log : List Mark) (consumer pool : Nat) : List Episode :=
  (log.filter fun m => m.consumer = consumer ∧ m.pool = some pool).foldl
    (fun es m => noted es m.sign) []

/-- The last episode has not ended. -/
def Ongoing (log : List Mark) (consumer pool : Nat) : Prop :=
  ∃ e ∈ (episodes log consumer pool).head?, e.ended = 0

instance (log : List Mark) : Decidable (Ongoing log consumer pool) :=
  inferInstanceAs (Decidable (∃ e ∈ (episodes log consumer pool).head?, _))

/-- A step of the consumers, with what is seen of it. -/
def observe : State × List Mark → Event → Option (State × List Mark) :=
  logged fun s event => (step s event).map fun t => (t, s.marks event)

theorem observe_eq_some {w w' : State × List Mark} (h : observe w event = some w') :
    step w.1 event = some w'.1 ∧ w'.2 = w.2 ++ w.1.marks event := by
  obtain ⟨t, out, hs, rfl⟩ := logged_eq_some h
  obtain ⟨_, hstep, heq⟩ := Option.map_eq_some_iff.mp hs
  cases heq
  exact ⟨hstep, rfl⟩

/-- What is observed is a run of the consumers. -/
theorem reach_of_observe {ok : State × List Mark → Event → Prop} {w : State × List Mark}
    (hr : Reach observe ok (start, []) w) : Reach step anyStep start w.1 := by
  induction hr with
  | refl => exact .refl
  | tail _ _ hs ih => exact ih.tail trivial (observe_eq_some hs).1

theorem episodes_append (log ms : List Mark) :
    episodes (log ++ ms) consumer pool =
      (ms.filter fun m => m.consumer = consumer ∧ m.pool = some pool).foldl
        (fun es m => noted es m.sign) (episodes log consumer pool) := by
  rw [episodes, List.filter_append, List.foldl_append]
  rfl

/-- A sign of another consumer, or on another pool. -/
theorem episodes_other {log ms : List Mark}
    (h : ∀ m ∈ ms, ¬ (m.consumer = consumer ∧ m.pool = some pool)) :
    episodes (log ++ ms) consumer pool = episodes log consumer pool := by
  rw [episodes_append, List.filter_eq_nil_iff.mpr fun m hm => by simpa using h m hm]
  rfl

theorem episodes_sign {log : List Mark} {m : Mark} (hconsumer : m.consumer = consumer)
    (hpool : m.pool = some pool) :
    episodes (log ++ [m]) consumer pool = noted (episodes log consumer pool) m.sign := by
  rw [episodes_append, List.filter_cons_of_pos (by simp [hconsumer, hpool])]
  rfl

/-! ## What a step means for the loops -/

/-- What a step does to the loops, with what is seen of it. -/
inductive Recovers (s t : State) : List Mark → Prop
  | rests (hloops : t.loops = s.loops)
      (hdrops : ∀ drop : Drop, t.drops[s.drops.length]? = some drop →
        ∀ l, drop.cause ≠ .recovery l)
      (hemitted : t.emitted = s.emitted) : Recovers s t []
  | cancelled {consumer n : Nat}
      (hloops : t.loops = s.loops ++
        List.replicate n ⟨consumer, s.channelPool, s.epoch consumer, 1, .sleeping⟩)
      (hdrops : t.drops = s.drops)
      (hemitted : t.emitted = s.emitted ++ List.replicate n (.consumerCancelled consumer)) :
      Recovers s t (List.replicate n ⟨consumer, s.channelPool, .cancelled⟩)
  | tries {l : Nat} {loop : Loop} (hl : s.loops[l]? = some loop) (hstage : loop.stage = .sleeping)
      (hloops : t.loops = s.loops.set l
        { loop with knownEpoch := s.epoch loop.consumer + 1, stage := .trying })
      (hdrops : t.drops = s.drops) (hemitted : t.emitted = s.emitted) :
      Recovers s t [⟨loop.consumer, loop.ownedPool, .attempt⟩]
  | fenced {l : Nat} {loop : Loop} (hl : s.loops[l]? = some loop) (hstage : loop.stage = .sleeping)
      (hloops : t.loops = s.loops.set l { loop with stage := .ended }) (hdrops : t.drops = s.drops)
      (hemitted : t.emitted = s.emitted) : Recovers s t []
  | recovered {l k : Nat} {loop : Loop} {setup : Setup} (hl : s.loops[l]? = some loop)
      (hk : s.setups[k]? = some setup) (hcaller : setup.caller = .recovery l)
      (hstage : ∀ ok, setup.stage ≠ .settled ok)
      (hafter : t.setups[k]? = some { setup with stage := .settled true })
      (hloops : t.loops = s.loops.set l { loop with stage := .ended }) (hdrops : t.drops = s.drops)
      (hemitted : t.emitted = s.emitted ++ [.consumerRecovered setup.consumer]) :
      Recovers s t [⟨loop.consumer, loop.ownedPool, .recovered⟩]
  | fails {l k : Nat} {loop loop' : Loop} {setup : Setup} (hl : s.loops[l]? = some loop)
      (hk : s.setups[k]? = some setup) (hcaller : setup.caller = .recovery l)
      (hstage : ∀ ok, setup.stage ≠ .settled ok)
      (hafter : t.setups[k]? = some { setup with stage := .settled false })
      (hsettles : Settles s false loop loop') (hloops : t.loops = s.loops.set l loop')
      (hdrops : ∀ drop : Drop, t.drops[s.drops.length]? = some drop → drop.cause = .recovery l ∧
        drop.consumer = loop.consumer ∧ loop'.stage = .dropping)
      (hemitted : t.emitted = s.emitted) : Recovers s t []
  | lost {l d : Nat} {loop : Loop} {drop : Drop} {released : Option Nat}
      (hl : s.loops[l]? = some loop) (hd : s.drops[d]? = some drop)
      (hstage : drop.stage = .releasing released) (hcause : drop.cause = .recovery l)
      (hafter : t.drops[d]? = some { drop with stage := .done })
      (hloops : t.loops = s.loops.set l { loop with stage := .ended })
      (hdrops : t.drops.length = s.drops.length)
      (hemitted : t.emitted = s.emitted ++ [.consumerLost drop.consumer]) :
      Recovers s t [⟨loop.consumer, loop.ownedPool, .lost⟩]

/-- No drop begins. -/
theorem not_begun (h : t.drops.length = s.drops.length) {drop : Drop} {P : Prop}
    (hd : t.drops[s.drops.length]? = some drop) : P := by
  rw [← h, List.getElem?_eq_none (Nat.le_refl _)] at hd
  cases hd

theorem Recovers.quiet (hloops : t.loops = s.loops) (hdrops : t.drops.length = s.drops.length)
    (hemitted : t.emitted = s.emitted) : Recovers s t [] :=
  .rests hloops (fun _ hd => not_begun hdrops hd) hemitted

theorem settleSetup_recovery {setup : Setup} (hcaller : setup.caller = .recovery l) :
    s.settleSetup k setup false = (s.loops[l]?).elim (s.setSetup k (.settled false)) fun loop =>
      (s.setSetup k (.settled false)).attemptFails l loop := by
  simp only [settleSetup, hcaller, setSetup]
  cases s.loops[l]? <;> rfl

/-- A setup fails in a state with the setups, the loops, the drops and the registry of `s`. -/
theorem Recovers.of_settleSetup {s₀ : State} {setup : Setup} (hk : s.setups[k]? = some setup)
    (hstage : ∀ ok, setup.stage ≠ .settled ok) (hsetups : s₀.setups = s.setups)
    (hloops : s₀.loops = s.loops) (hdrops : s₀.drops = s.drops) (hemitted : s₀.emitted = s.emitted)
    (hours : ∀ loop, s₀.stillOurs loop = s.stillOurs loop) :
    Recovers s (s₀.settleSetup k setup false) [] := by
  have hafter : (s₀.settleSetup k setup false).setups[k]? =
      some { setup with stage := .settled false } := by
    rw [settleSetup_setups, hsetups, List.getElem?_modify_of hk, if_pos rfl]
  have hlength : s₀.drops.length = s.drops.length := by rw [hdrops]
  cases hcaller : setup.caller with
  | subscribe =>
    have hsettled : s₀.settleSetup k setup false =
        (s₀.setSetup k (.settled false)).dropConsumer setup.consumer .subscribe := by
      simp [settleSetup, hcaller]
    rw [hsettled]
    refine .rests hloops (fun drop hd l => ?_) hemitted
    rw [← hdrops] at hd
    cases List.getElem?_concat_length.symm.trans hd
    nofun
  | recreation =>
    have hsettled : s₀.settleSetup k setup false = s₀.setSetup k (.settled false) := by
      simp [settleSetup, hcaller]
    rw [hsettled]
    exact .quiet hloops hlength hemitted
  | recovery l =>
    rw [settleSetup_recovery hcaller] at hafter ⊢
    cases hl : s₀.loops[l]? with
    | none => exact .quiet hloops hlength hemitted
    | some loop =>
      rw [hl] at hafter
      have hl' : s.loops[l]? = some loop := hloops ▸ hl
      have hset (loop' : Loop) : s₀.loops.set l loop' = s.loops.set l loop' := by rw [hloops]
      dsimp only [Option.elim] at hafter ⊢
      unfold attemptFails at hafter ⊢
      split
      · next hattempt =>
        rw [if_pos hattempt] at hafter
        exact .fails hl' hk hcaller hstage hafter (.again rfl hattempt) (hset _)
          (fun _ hd => not_begun hlength hd) hemitted
      · next hattempt =>
        have hmodify (stage : LoopStage) : (s₀.setLoop l stage).loops =
            s.loops.set l { loop with stage } := (List.modify_of_getElem? hl).trans (hset _)
        rw [if_neg hattempt] at hafter
        split
        · next hfence =>
          rw [if_pos hfence] at hafter
          refine .fails hl' hk hcaller hstage hafter (.givesUp rfl hattempt (hours loop ▸ hfence))
            (hmodify _) (fun drop hd => ?_) hemitted
          rw [← hdrops] at hd
          cases List.getElem?_concat_length.symm.trans hd
          exact ⟨rfl, rfl, rfl⟩
        · next hfence =>
          rw [if_neg hfence] at hafter
          exact .fails hl' hk hcaller hstage hafter (.fenced rfl hattempt (hours loop ▸ hfence))
            (hmodify _) (fun _ hd => not_begun hlength hd) hemitted

theorem handleConsumerLoss_recovers {s₀ : State} (hloops : s₀.loops = s.loops)
    (hdrops : s₀.drops = s.drops) (hemitted : s₀.emitted = s.emitted)
    (hpool : s₀.channelPool = s.channelPool) (hepoch : s₀.epoch consumer = s.epoch consumer) :
    Recovers s (s₀.handleConsumerLoss consumer) (s₀.losses consumer 1) := by
  unfold handleConsumerLoss losses
  by_cases hours : consumer ∈ s₀.activeConsumers ∧ !s₀.cancelled consumer
  · rw [if_pos hours, if_pos hours, hpool, hepoch]
    exact .cancelled (by rw [← hloops]; rfl) hdrops (by rw [← hemitted]; rfl)
  · rw [if_neg hours, if_neg hours]
    exact .quiet hloops (by rw [hdrops]) hemitted

theorem channelCloses_recovers {channel : Nat} {c : Channel} (hc : s.channels[channel]? = some c) :
    Recovers s (s.channelCloses channel c) (s.marks (.channelCloses channel)) := by
  let s₁ : State := { s with
    channels := s.channels.set channel { c with life := .closed }
    dedicatedChannels := s.dedicatedChannels.erase (c.pool, c.owner) }
  have hcloses : s.channelCloses channel c =
      if s.poolOpen ∧ s.consumers[c.owner]?.any (·.channel = some channel) then
        Nat.repeat (fun s : State => s.handleConsumerLoss c.owner) c.watchers s₁
      else s₁ := rfl
  rw [State.marks, hc, Option.elim, hcloses]
  by_cases hlost : s.poolOpen ∧ s.consumers[c.owner]?.any (·.channel = some channel)
  · rw [if_pos hlost, if_pos hlost, losses]
    by_cases hours : c.owner ∈ s.activeConsumers ∧ !s.cancelled c.owner
    · rw [if_pos hours, handleConsumerLosses s₁ c.owner hours c.watchers]
      exact .cancelled rfl rfl rfl
    · rw [if_neg hours, handleConsumerLosses_of_not s₁ c.owner hours c.watchers]
      exact .quiet rfl rfl rfl
  · rw [if_neg hlost, if_neg hlost]
    exact .quiet rfl rfl rfl

theorem setupCompletes_recovers {setup : Setup} {channel consumerTag : Nat}
    (hk : s.setups[k]? = some setup) (hstage : setup.stage = .consumed channel consumerTag) :
    Recovers s (s.setupCompletes k setup channel consumerTag) (s.marks (.setupCompletes k)) := by
  rw [State.marks, hk, Option.elim]
  unfold State.setupCompletes
  by_cases hgone : setup.consumer ∉ s.activeConsumers ∨ s.cancelled setup.consumer
  · rw [if_pos hgone]
    cases setup.caller with
    | recovery l =>
      dsimp only
      rw [if_pos hgone]
      exact .quiet rfl rfl rfl
    | subscribe | recreation => exact .quiet rfl rfl rfl
  · rw [if_neg hgone]
    cases hcaller : setup.caller with
    | recovery l =>
      dsimp only
      rw [if_neg hgone]
      have hloops : (s.track setup.consumer channel consumerTag).loops = s.loops := by simp
      have hsettled : (s.track setup.consumer channel consumerTag).settleSetup k setup true =
          (s.loops[l]?).elim
            ((s.track setup.consumer channel consumerTag).setSetup k (.settled true)) fun _ =>
              (((s.track setup.consumer channel consumerTag).setSetup k (.settled true)).setLoop l
                .ended).emit (.consumerRecovered setup.consumer) := by
        simp only [settleSetup, hcaller, setSetup, hloops]
        cases s.loops[l]? <;> rfl
      rw [hsettled, State.sign]
      cases hl : s.loops[l]? with
      | none => apply Recovers.quiet <;> simp [setSetup]
      | some loop =>
        refine .recovered hl hk hcaller (by simp [hstage]) ?_ ?_ (by simp [setSetup, setLoop, emit])
          (by simp [setSetup, setLoop, emit])
        · rw [Option.elim, emit, setLoop, setSetup, List.getElem?_modify_of (by simpa using hk),
            if_pos rfl]
        · rw [Option.elim, emit, setLoop, setSetup, hloops]
          exact List.modify_of_getElem? hl
    | subscribe | recreation =>
      apply Recovers.quiet <;> simp [settleSetup, hcaller, setSetup, modifyConsumer]

theorem Steps.recovers (h : Steps s event t)
    (hloop : ∀ {d : Nat} {drop : Drop} {l : Nat}, s.drops[d]? = some drop →
      drop.cause = .recovery l → ∃ loop, s.loops[l]? = some loop) : Recovers s t (s.marks event) := by
  cases h with
  | @unsubscribe consumerTag consumer c =>
    rcases unsubscribe_cases s consumer c with ⟨_, _, _, _, heq⟩ | heq
    · rw [heq]
      exact .quiet rfl rfl rfl
    · rw [heq]
      refine .rests rfl (fun drop hd l => ?_) rfl
      cases List.getElem?_concat_length.symm.trans hd
      simp
  | @unsubscribeCancelled u consumer channel consumerTag =>
    refine .rests (by simp) (fun drop hd l => ?_) (by simp)
    rcases dropConsumer_drops hd with hd | ⟨-, -, hcause, -⟩
    · rw [setUnsubscribe, (cancel_frame ..).2.2.2.2.2.2.2.2.2.1,
        List.getElem?_eq_none (Nat.le_refl _)] at hd
      cases hd
    · rw [hcause]
      simp
  | @setupContinues k setup channel hk hstage =>
    change Recovers s _ []
    unfold State.setupContinues
    split
    · apply Recovers.quiet <;> simp [setSetup]
    · split
      · exact .of_settleSetup hk (by simp [hstage]) rfl rfl rfl rfl fun _ => rfl
      · split <;> exact .quiet rfl rfl rfl
  | setupCompletes hk hstage => exact setupCompletes_recovers hk hstage
  | setupCancelled hk hstage =>
    refine .of_settleSetup hk (by simp [hstage]) (by simp) (by simp) (by simp) (by simp)
      fun loop => ?_
    simp [stillOurs, State.cancelled]
  | setupReleased hk hstage =>
    exact .of_settleSetup hk (by simp [hstage]) rfl rfl rfl rfl fun _ => rfl
  | @setupFails k setup hk hstage =>
    refine .of_settleSetup hk (fun ok h => ?_) rfl rfl rfl rfl fun _ => rfl
    rw [h] at hstage
    cases hstage
  | loopTries hl hstage _ hours hepoch =>
    rw [State.marks, hl, Option.elim, if_pos ⟨hours, hepoch⟩, sign_of hl]
    exact .tries hl hstage (by simp [tryAgain]) (by simp [tryAgain]) (by simp [tryAgain])
  | loopEnds hl hstage _ hfence =>
    rw [State.marks, hl, Option.elim, if_neg hfence]
    exact .fenced hl hstage (List.modify_of_getElem? hl) rfl rfl
  | brokerCancels hi =>
    rw [State.marks, hi]
    exact handleConsumerLoss_recovers rfl rfl rfl rfl rfl
  | channelCloses hc => exact channelCloses_recovers hc
  | @dropped d drop released hd hstage =>
    rw [State.marks, hd, Option.elim]
    unfold State.dropped
    have hafter : (s.setDrop d .done).drops[d]? = some { drop with stage := .done } := by
      rw [setDrop, List.getElem?_modify_of hd, if_pos rfl]
    cases hcause : drop.cause with
    | recovery l =>
      obtain ⟨loop, hl⟩ := hloop hd hcause
      dsimp only
      rw [sign_of hl]
      exact .lost hl hd hstage hcause hafter (List.modify_of_getElem? hl) (by simp [setLoop, setDrop, emit]) rfl
    | subscribe | unsubscribe => apply Recovers.quiet <;> simp [setDrop, setUnsubscribe]
  | handled =>
    refine .quiet (by simp) ?_ (by simp)
    unfold State.handled
    dsimp only
    split <;> simp [modifyConsumer]
  | @removeConsumer d drop workers =>
    refine .quiet (by simp) ?_ (by simp)
    cases workers with
    | true => simp [removeConsumer_of_workers, setDrop, removed]
    | false => simp [removeConsumer_of_no_workers, setDrop, removed]
  | terminated => exact .quiet (by simp) (by simp [State.terminated, setDrop]) (by simp)
  | _ =>
    apply Recovers.quiet <;>
      simp [setDrop, setSetup, modifyConsumer, closePool, State.connectionLost,
        State.channelOpened, State.consumeOk]

/-! ## Nothing else is run or emitted -/

/-- The mark of a setup that a loop ran. -/
def Setup.attempt (setup : Setup) : Option Mark :=
  match setup.caller with
  | .recovery _ => some ⟨setup.consumer, setup.pool, .attempt⟩
  | .subscribe | .recreation => none

theorem attempt_modify (setups : List Setup) (stage : SetupStage) :
    (setups.modify k fun setup => { setup with stage }).filterMap Setup.attempt =
      setups.filterMap Setup.attempt :=
  List.filterMap_modify_of_same fun _ => rfl

theorem losses_attempt (n : Nat) : (s.losses consumer n).filter (·.sign = .attempt) = [] := by
  unfold losses
  split
  · exact List.filter_eq_nil_iff.mpr fun m hm => by simp [List.eq_of_mem_replicate hm]
  · rfl

theorem sign_attempt {sign : Sign} (h : sign ≠ .attempt) :
    (s.sign l sign).filter (·.sign = .attempt) = [] := by
  unfold State.sign
  cases s.loops[l]? with
  | none => rfl
  | some loop => exact List.filter_cons_of_neg (by simpa using h)

/-- Only a loop that has slept makes an attempt. -/
theorem marks_attempt (h : ∀ l, event ≠ .loopWakes l) :
    (s.marks event).filter (·.sign = .attempt) = [] := by
  cases event with
  | loopWakes l => exact absurd rfl (h l)
  | brokerCancels i =>
    rw [State.marks]
    cases s.consumes[i]? with
    | none => rfl
    | some c => exact losses_attempt 1
  | channelCloses channel =>
    rw [State.marks]
    cases s.channels[channel]? with
    | none => rfl
    | some c =>
      dsimp only [Option.elim]
      split
      · exact losses_attempt _
      · rfl
  | setupCompletes k =>
    rw [State.marks]
    cases s.setups[k]? with
    | none => rfl
    | some setup =>
      dsimp only [Option.elim]
      split
      · split
        · rfl
        · exact sign_attempt nofun
      · rfl
      · rfl
  | dropped d =>
    rw [State.marks]
    cases s.drops[d]? with
    | none => rfl
    | some drop =>
      dsimp only [Option.elim]
      split
      · exact sign_attempt nofun
      · rfl
      · rfl
  | _ => rfl

/-- The attempts that are seen are the setups that the loops ran. -/
theorem Steps.attempts (h : Steps s event t) :
    t.setups.filterMap Setup.attempt =
      s.setups.filterMap Setup.attempt ++ (s.marks event).filter (·.sign = .attempt) := by
  have hquiet : (∀ l, event ≠ .loopWakes l) →
      t.setups.filterMap Setup.attempt = s.setups.filterMap Setup.attempt →
      t.setups.filterMap Setup.attempt =
        s.setups.filterMap Setup.attempt ++ (s.marks event).filter (·.sign = .attempt) := by
    intro hnot heq
    rw [marks_attempt hnot, heq, List.append_nil]
  cases h with
  | loopTries hl hstage _ hours hepoch =>
    have hpool := channelPool_of_ours hours
    rw [State.marks, hl, Option.elim, if_pos ⟨hours, hepoch⟩, sign_of hl]
    simp [tryAgain, runSetup, modifyConsumer, Setup.attempt, hpool]
  | loopEnds hl _ _ hfence =>
    rw [State.marks, hl, Option.elim, if_neg hfence]
    exact (List.append_nil _).symm
  | setupContinues =>
    refine hquiet (by simp) ?_
    unfold State.setupContinues
    split
    · simp [setSetup, attempt_modify]
    · split
      · simp [attempt_modify]
      · split <;> simp [setSetup, attempt_modify]
  | setupCompletes =>
    refine hquiet (by simp) ?_
    unfold State.setupCompletes
    split <;> simp [setSetup, attempt_modify]
  | _ =>
    refine hquiet (by simp) ?_
    simp [runSetup, Setup.attempt, setDrop, setSetup, modifyConsumer, closePool,
      State.connectionLost, State.channelOpened, State.consumeOk, attempt_modify]

/-- The event that a sign stands for. -/
def Mark.emission (m : Mark) : Option Emission :=
  match m.sign with
  | .cancelled => some (.consumerCancelled m.consumer)
  | .attempt => none
  | .recovered => some (.consumerRecovered m.consumer)
  | .lost => some (.consumerLost m.consumer)

/-- What is emitted in a step is what is seen of it. -/
theorem Recovers.emitted {ms : List Mark} (h : Recovers s t ms) (hawaited : Awaited s)
    (howner : ∀ {d : Nat} {drop : Drop} {l : Nat}, s.drops[d]? = some drop →
      drop.cause = .recovery l → ∃ loop, s.loops[l]? = some loop ∧ loop.consumer = drop.consumer) :
    t.emitted = s.emitted ++ ms.filterMap Mark.emission := by
  cases h with
  | rests _ _ hemitted | fenced _ _ _ _ hemitted | fails _ _ _ _ _ _ _ _ hemitted
  | tries _ _ _ _ hemitted => exact hemitted.trans (List.append_nil _).symm
  | @cancelled consumer n _ _ hemitted =>
    have hcancelled : Mark.emission ⟨consumer, s.channelPool, .cancelled⟩ =
        some (.consumerCancelled consumer) := rfl
    rw [hemitted, List.filterMap_replicate_of_some hcancelled]
  | recovered hl hk hcaller _ _ _ _ hemitted =>
    obtain ⟨_, hl', hconsumer⟩ := hawaited.callers hk hcaller
    cases hl.symm.trans hl'
    rw [hemitted, ← hconsumer]
    rfl
  | lost hl hd _ hcause _ _ _ hemitted =>
    obtain ⟨_, hl', hconsumer⟩ := howner hd hcause
    cases hl.symm.trans hl'
    rw [hemitted, ← hconsumer]
    rfl

end ConsumerManager
end RabbitMQ
