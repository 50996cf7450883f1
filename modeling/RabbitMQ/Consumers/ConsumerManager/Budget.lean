import RabbitMQ.Consumers.ConsumerManager.Episodes

/-! The budget of a recovery.

A loop makes three attempts at most and reports one end. Nothing keeps two loops of a consumer apart
but the loss signals that begin them: when a signal comes while an episode is open, a second loop
joins it with attempts of its own. -/

namespace RabbitMQ
namespace ConsumerManager

open Transition State

variable {s t : State} {event : Event} {ms : List Mark} {consumer pool k l d : Nat}

/-- What a step makes of a loop. -/
inductive Turns (s t : State) (l : Nat) (loop' : Loop) : Prop
  | same (hl : s.loops[l]? = some loop')
  | begins (hl : s.loops.length ≤ l) (hstage : loop'.stage = .sleeping) (hattempt : loop'.attempt = 1)
  | tries {loop : Loop} (hl : s.loops[l]? = some loop) (hstage : loop.stage = .sleeping)
      (heq : loop' = { loop with knownEpoch := s.epoch loop.consumer + 1, stage := .trying })
  | fenced {loop : Loop} (hl : s.loops[l]? = some loop) (hstage : loop.stage = .sleeping)
      (heq : loop' = { loop with stage := .ended })
  | settles {loop : Loop} {k : Nat} {setup : Setup} {ok : Bool} (hl : s.loops[l]? = some loop)
      (hk : s.setups[k]? = some setup) (hcaller : setup.caller = .recovery l)
      (hstage : ∀ ok, setup.stage ≠ .settled ok)
      (hafter : t.setups[k]? = some { setup with stage := .settled ok })
      (hsettles : Settles s ok loop loop')
  | lost {loop : Loop} {d : Nat} {drop : Drop} (hl : s.loops[l]? = some loop)
      (hd : s.drops[d]? = some drop) (hstage : drop.stage ≠ .done) (hcause : drop.cause = .recovery l)
      (hafter : t.drops[d]? = some { drop with stage := .done })
      (heq : loop' = { loop with stage := .ended })

theorem Recovers.turns (h : Recovers s t ms) {loop' : Loop} (hl : t.loops[l]? = some loop') :
    Turns s t l loop' := by
  cases h with
  | rests hloops => exact .same (hloops ▸ hl)
  | cancelled hloops =>
    rw [hloops] at hl
    rcases Nat.lt_or_ge l s.loops.length with hlt | hge
    · rw [List.getElem?_append_left hlt] at hl
      exact .same hl
    · rw [List.getElem?_append_right hge] at hl
      have heq := List.eq_of_mem_replicate (List.mem_of_getElem? hl)
      exact .begins hge (by rw [heq]) (by rw [heq])
  | tries hl₀ hstage hloops =>
    rw [hloops] at hl
    rcases List.getElem?_set_cases hl with ⟨rfl, heq⟩ | ⟨-, hl⟩
    · exact .tries hl₀ hstage heq
    · exact .same hl
  | fenced hl₀ hstage hloops =>
    rw [hloops] at hl
    rcases List.getElem?_set_cases hl with ⟨rfl, heq⟩ | ⟨-, hl⟩
    · exact .fenced hl₀ hstage heq
    · exact .same hl
  | recovered hl₀ hk hcaller hstage hafter hloops =>
    rw [hloops] at hl
    rcases List.getElem?_set_cases hl with ⟨rfl, rfl⟩ | ⟨-, hl⟩
    · exact .settles hl₀ hk hcaller hstage hafter (.recovered rfl)
    · exact .same hl
  | fails hl₀ hk hcaller hstage hafter hsettles hloops =>
    rw [hloops] at hl
    rcases List.getElem?_set_cases hl with ⟨rfl, rfl⟩ | ⟨-, hl⟩
    · exact .settles hl₀ hk hcaller hstage hafter hsettles
    · exact .same hl
  | lost hl₀ hd hstage hcause hafter hloops =>
    rw [hloops] at hl
    rcases List.getElem?_set_cases hl with ⟨rfl, heq⟩ | ⟨-, hl⟩
    · exact .lost hl₀ hd (by rw [hstage]; nofun) hcause hafter heq
    · exact .same hl

/-! ## What a loop waits for -/

/-- A loop waits for its setup while it tries, and for its drop while it drops. -/
structure Answering (s : State) : Prop where
  trying : ∀ {k : Nat} {setup : Setup} {l : Nat} {loop : Loop}, s.setups[k]? = some setup →
    setup.caller = .recovery l → (∀ ok, setup.stage ≠ .settled ok) → s.loops[l]? = some loop →
    loop.stage = .trying
  owner : ∀ {d : Nat} {drop : Drop} {l : Nat}, s.drops[d]? = some drop →
    drop.cause = .recovery l → ∃ loop, s.loops[l]? = some loop ∧ loop.consumer = drop.consumer
  dropping : ∀ {d : Nat} {drop : Drop} {l : Nat} {loop : Loop}, s.drops[d]? = some drop →
    drop.cause = .recovery l → drop.stage ≠ .done → s.loops[l]? = some loop →
    loop.stage = .dropping
  one : ∀ {d e : Nat} {drop drop' : Drop} {l : Nat}, s.drops[d]? = some drop →
    s.drops[e]? = some drop' → drop.cause = .recovery l → drop'.cause = .recovery l →
    drop.stage ≠ .done → drop'.stage ≠ .done → d = e
  attempt : ∀ {l : Nat} {loop : Loop}, s.loops[l]? = some loop →
    0 < loop.attempt ∧ loop.attempt ≤ maxAttempts

theorem answering_start : Answering start := ⟨nofun, nofun, nofun, nofun, nofun⟩

theorem Answering.recovers (h : Answering s) (hsteps : Steps s event t) :
    Recovers s t (s.marks event) :=
  hsteps.recovers fun hd hcause => (h.owner hd hcause).imp fun _ => And.left

/-- A drop that is under way was, or has just begun. -/
theorem DropCases.under_way {drop' : Drop} (h : DropCases s t d drop') (hstage : drop'.stage ≠ .done) :
    (∃ drop, s.drops[d]? = some drop ∧ drop'.cause = drop.cause ∧ drop.stage ≠ .done) ∨
      d = s.drops.length := by
  cases h with
  | same hd => exact .inl ⟨drop', hd, rfl, hstage⟩
  | @drained drop hd hbefore heq | @removes drop hd hbefore heq =>
    exact .inl ⟨drop, hd, by rw [heq], by rw [hbefore]; nofun⟩
  | @releases drop _ hd hbefore heq =>
    refine .inl ⟨drop, hd, by rw [heq], ?_⟩
    rcases hbefore with hbefore | hbefore <;> rw [hbefore] <;> nofun
  | done _ _ heq =>
    rw [heq] at hstage
    exact absurd rfl hstage
  | begins hd => exact .inr hd

/-- A loop that begins to drop its consumer has just seen its setup fail. -/
theorem Recovers.begun (h : Recovers s t ms) {drop : Drop}
    (hd : t.drops[s.drops.length]? = some drop) (hcause : drop.cause = .recovery l) :
    ∃ (loop loop' : Loop) (k : Nat) (setup : Setup), s.loops[l]? = some loop ∧
      s.setups[k]? = some setup ∧ setup.caller = .recovery l ∧
      (∀ ok, setup.stage ≠ .settled ok) ∧ t.loops[l]? = some loop' ∧
      loop'.consumer = drop.consumer ∧ loop'.stage = .dropping := by
  cases h with
  | rests _ hdrops => exact absurd hcause (hdrops drop hd l)
  | cancelled _ hdrops | tries _ _ _ hdrops | fenced _ _ _ hdrops | recovered _ _ _ _ _ _ hdrops =>
    exact not_begun (congrArg List.length hdrops) hd
  | lost _ _ _ _ _ _ hdrops => exact not_begun hdrops hd
  | @fails l' k loop loop' setup hl hk hcaller hstage _ hsettles hloops hdrops =>
    obtain ⟨hcause', hconsumer, hdropping⟩ := hdrops drop hd
    cases hcause.symm.trans hcause'
    refine ⟨loop, loop', k, setup, hl, hk, hcaller, hstage, ?_, ?_, hdropping⟩
    · rw [hloops, List.getElem?_set_self (List.getElem?_eq_some_iff.mp hl).1]
    · exact hsettles.kept.1.trans hconsumer.symm

theorem Answering.step_trying (h : Answering s) (hawaited : Awaited s) (hsteps : Steps s event t)
    {setup' : Setup} {loop' : Loop} (hk : t.setups[k]? = some setup')
    (hcaller : setup'.caller = .recovery l) (hstage : ∀ ok, setup'.stage ≠ .settled ok)
    (hl : t.loops[l]? = some loop') : loop'.stage = .trying := by
  rcases (hsteps.setups hk).in_flight hstage with ⟨setup, hk₀, heq, -, hstage₀⟩ | ⟨-, hbegins⟩
  · rw [heq] at hcaller
    have hbefore : ∀ {loop : Loop}, s.loops[l]? = some loop → loop.stage = .trying :=
      h.trying hk₀ hcaller hstage₀
    cases (h.recovers hsteps).turns hl with
    | same hl₀ => exact hbefore hl₀
    | begins hge =>
      obtain ⟨_, hl₀, -⟩ := hawaited.callers hk₀ hcaller
      exact absurd (List.getElem?_eq_some_iff.mp hl₀).1 (Nat.not_lt.mpr hge)
    | tries _ _ heq => rw [heq]
    | fenced hl₀ hsleeping => cases hsleeping.symm.trans (hbefore hl₀)
    | settles _ hj hcaller' hstage' hafter =>
      -- the setup that has just settled was the only one
      cases hawaited.one hk₀ hj hcaller hcaller' hstage₀ hstage'
      cases hk.symm.trans hafter
      exact absurd rfl (hstage _)
    | lost hl₀ hd hunder hcause =>
      cases (h.dropping hd hcause hunder hl₀).symm.trans (hbefore hl₀)
  · cases hbegins with
    | subscribe _ hcaller' | recreation _ hcaller' => cases hcaller.symm.trans hcaller'
    | recovery hevent hcaller' hl₀ _ hours hepoch =>
      cases hcaller.symm.trans hcaller'
      subst hevent
      cases hsteps with
      | loopTries =>
        rcases List.getElem?_set_cases hl with ⟨-, rfl⟩ | ⟨hne, -⟩
        · rfl
        · exact absurd rfl hne
      | loopEnds hj _ _ hfence =>
        cases hl₀.symm.trans hj
        exact absurd ⟨hours, hepoch⟩ hfence

theorem Answering.step_dropping (h : Answering s) (hsteps : Steps s event t) {drop' : Drop}
    {loop' : Loop} (hd : t.drops[d]? = some drop') (hcause : drop'.cause = .recovery l)
    (hstage : drop'.stage ≠ .done) (hl : t.loops[l]? = some loop') : loop'.stage = .dropping := by
  rcases (hsteps.drops hd).under_way hstage with ⟨drop, hd₀, heq, hstage₀⟩ | rfl
  · rw [heq] at hcause
    have hbefore : ∀ {loop : Loop}, s.loops[l]? = some loop → loop.stage = .dropping :=
      h.dropping hd₀ hcause hstage₀
    cases (h.recovers hsteps).turns hl with
    | same hl₀ => exact hbefore hl₀
    | begins hge =>
      obtain ⟨_, hl₀, -⟩ := h.owner hd₀ hcause
      exact absurd (List.getElem?_eq_some_iff.mp hl₀).1 (Nat.not_lt.mpr hge)
    | tries hl₀ hsleeping | fenced hl₀ hsleeping => cases hsleeping.symm.trans (hbefore hl₀)
    | settles hl₀ hk hcaller hstage' =>
      cases (h.trying hk hcaller hstage' hl₀).symm.trans (hbefore hl₀)
    | lost _ he hunder hcause' hafter =>
      cases h.one hd₀ he hcause hcause' hstage₀ hunder
      cases hd.symm.trans hafter
      exact absurd rfl hstage
  · obtain ⟨_, loop'', _, _, _, _, _, _, hl'', _, hdropping⟩ := (h.recovers hsteps).begun hd hcause
    cases hl.symm.trans hl''
    exact hdropping

theorem Answering.step (h : Answering s) (hawaited : Awaited s) (hsteps : Steps s event t) :
    Answering t where
  trying := h.step_trying hawaited hsteps
  dropping := h.step_dropping hsteps
  owner := by
    intro d drop' l hd hcause
    rcases (hsteps.drops hd).origin with ⟨drop, hd₀, hconsumer, heq⟩ | ⟨rfl, -⟩
    · obtain ⟨loop, hl, howner⟩ := h.owner hd₀ (heq ▸ hcause)
      obtain ⟨loop', hl', hkept, -⟩ := hsteps.loop_kept hl
      exact ⟨loop', hl', hkept.trans (howner.trans hconsumer.symm)⟩
    · obtain ⟨_, loop', _, _, _, _, _, _, hl', howner, -⟩ := (h.recovers hsteps).begun hd hcause
      exact ⟨loop', hl', howner⟩
  one := by
    -- the loop of a drop that begins has been trying, and that of another one dropping
    have hnew : ∀ {d : Nat} {drop drop' : Drop} {l : Nat}, s.drops[d]? = some drop →
        drop.cause = .recovery l → drop.stage ≠ .done →
        t.drops[s.drops.length]? = some drop' → drop'.cause = .recovery l → False := by
      intro d drop drop' l hd hcause hstage hd' hcause'
      obtain ⟨_, _, _, _, hl, hk, hcaller, hflight, -⟩ := (h.recovers hsteps).begun hd' hcause'
      cases (h.trying hk hcaller hflight hl).symm.trans (h.dropping hd hcause hstage hl)
    intro d e drop drop' l hd he hcause hcause' hstage hstage'
    rcases (hsteps.drops hd).under_way hstage with ⟨drop₀, hd₀, heq, hstage₀⟩ | rfl
    · rcases (hsteps.drops he).under_way hstage' with ⟨drop₁, he₀, heq', hstage₁⟩ | rfl
      · exact h.one hd₀ he₀ (heq ▸ hcause) (heq' ▸ hcause') hstage₀ hstage₁
      · exact (hnew hd₀ (heq ▸ hcause) hstage₀ he hcause').elim
    · rcases (hsteps.drops he).under_way hstage' with ⟨drop₁, he₀, heq', hstage₁⟩ | rfl
      · exact (hnew he₀ (heq' ▸ hcause') hstage₁ hd hcause).elim
      · rfl
  attempt := by
    intro l loop' hl
    cases (h.recovers hsteps).turns hl with
    | same hl₀ => exact h.attempt hl₀
    | begins _ _ hattempt =>
      rw [hattempt]
      exact ⟨Nat.one_pos, Nat.le_add_left 1 2⟩
    | tries hl₀ _ heq | fenced hl₀ _ heq | lost hl₀ _ _ _ _ heq =>
      rw [heq]
      have hattempt := h.attempt hl₀
      exact hattempt
    | settles hl₀ _ _ _ _ hsettles =>
      have hbefore := h.attempt hl₀
      cases hsettles with
      | again _ hattempt => exact ⟨Nat.succ_pos _, hattempt⟩
      | recovered | givesUp | fenced => exact hbefore

theorem answering {ok : State → Event → Prop} (hr : Reach step ok start s) : Answering s :=
  hr.invariant_of awaited answering_start fun hawaited _ h _ hs => h.step hawaited (step_cases hs)

/-! ## Episodes -/

/-- How often the loop has run the setup. -/
def Loop.made (loop : Loop) : Nat :=
  if loop.stage = .sleeping then loop.attempt - 1 else loop.attempt

def Episode.Fine (e : Episode) : Prop :=
  e.cancelled = 1 ∧ e.attempts ≤ maxAttempts ∧ e.ended ≤ 1

instance (e : Episode) : Decidable e.Fine := inferInstanceAs (Decidable (_ ∧ _))

/-- The loop is at work for the consumer on the pool. -/
structure Works (s : State) (consumer pool l : Nat) (loop : Loop) : Prop where
  get : s.loops[l]? = some loop
  consumer : loop.consumer = consumer
  pool : loop.ownedPool = some pool
  stage : loop.stage ≠ .ended

/-- The loops of a consumer on a pool, and the episodes that are seen of them. -/
structure Within (s : State) (consumer pool : Nat) (es : List Episode) : Prop where
  fine : ∀ e ∈ es, e.Fine
  /-- The episode of a loop at work is the last one, and has not ended. -/
  current : ∀ {l : Nat} {loop : Loop}, Works s consumer pool l loop →
    ∃ rest, es = ⟨1, loop.made, 0⟩ :: rest
  one : ∀ {l l' : Nat} {loop loop' : Loop}, Works s consumer pool l loop →
    Works s consumer pool l' loop' → l = l'

theorem within_start : Within start consumer pool [] :=
  ⟨nofun, fun h => (nomatch h.get), fun h _ => nomatch h.get⟩

/-- The loops at work were at work, and have made as many attempts. -/
theorem Within.kept {es : List Episode} (h : Within s consumer pool es)
    (hback : ∀ {l : Nat} {loop' : Loop}, Works t consumer pool l loop' →
      ∃ loop, Works s consumer pool l loop ∧ loop'.made = loop.made) : Within t consumer pool es where
  fine := h.fine
  current hworks := by
    obtain ⟨loop, hworks, hmade⟩ := hback hworks
    rw [hmade]
    exact h.current hworks
  one hworks hworks' := by
    obtain ⟨_, hworks, -⟩ := hback hworks
    obtain ⟨_, hworks', -⟩ := hback hworks'
    exact h.one hworks hworks'

/-- While no episode is open, no loop is at work. -/
theorem Within.idle {log : List Mark} (h : Within s consumer pool (episodes log consumer pool))
    (hended : ¬ Ongoing log consumer pool) {loop : Loop} : ¬ Works s consumer pool l loop := by
  intro hworks
  obtain ⟨rest, heq⟩ := h.current hworks
  exact hended ⟨⟨1, loop.made, 0⟩, by rw [heq]; rfl, rfl⟩

/-- The condition: a loss signal finds no open episode of its consumer, and starts one loop. -/
def Spaced (w : State × List Mark) (event : Event) : Prop :=
  ∀ m ∈ w.1.marks event, m.sign = .cancelled → ∀ pool ∈ m.pool,
    ¬ Ongoing w.2 m.consumer pool ∧ w.1.marks event = [m]

instance (w : State × List Mark) : Decidable (Spaced w event) :=
  inferInstanceAs (Decidable (∀ m ∈ w.1.marks event, _ → ∀ pool ∈ m.pool, _))

/-- A sign of a loop that is at work adds to its episode. -/
theorem Within.noted_of {es : List Episode} (h : Within s consumer pool es) {loop : Loop}
    (hworks : Works s consumer pool l loop) {sign : Sign} (hsign : sign ≠ .cancelled) :
    ∃ rest, (∀ e ∈ rest, e.Fine) ∧
      noted es sign = Episode.note ⟨1, loop.made, 0⟩ sign :: rest := by
  obtain ⟨rest, rfl⟩ := h.current hworks
  exact ⟨rest, fun e he => h.fine e (List.mem_cons_of_mem _ he), if_neg fun hc => hsign hc.1⟩

theorem Loop.made_le {loop : Loop} (h : loop.attempt ≤ maxAttempts) : loop.made ≤ maxAttempts := by
  unfold made
  split
  · exact Nat.le_trans (Nat.sub_le _ _) h
  · exact h

/-- A step writes one loop. -/
theorem Works.of_set {loop' loop'' : Loop} {l' : Nat} (hloops : t.loops = s.loops.set l loop')
    (h : Works t consumer pool l' loop'') :
    (l = l' ∧ loop'' = loop') ∨ (l ≠ l' ∧ Works s consumer pool l' loop'') := by
  have hl := h.get
  rw [hloops] at hl
  exact (List.getElem?_set_cases hl).imp_right fun hl => ⟨hl.1, hl.2, h.consumer, h.pool, h.stage⟩

/-- A loop at work shows a sign. -/
theorem Within.turned {log : List Mark} (h : Within s consumer pool (episodes log consumer pool))
    {loop loop' : Loop} (hl : s.loops[l]? = some loop) (hstage : loop.stage ≠ .ended)
    (hloops : t.loops = s.loops.set l loop')
    (hsame : loop'.consumer = loop.consumer ∧ loop'.ownedPool = loop.ownedPool) {sign : Sign}
    (hsign : sign ≠ .cancelled) (hfine : (Episode.note ⟨1, loop.made, 0⟩ sign).Fine)
    (hcurrent : loop'.stage ≠ .ended → Episode.note ⟨1, loop.made, 0⟩ sign = ⟨1, loop'.made, 0⟩) :
    Within t consumer pool
      (episodes (log ++ [⟨loop.consumer, loop.ownedPool, sign⟩]) consumer pool) := by
  by_cases hm : loop.consumer = consumer ∧ loop.ownedPool = some pool
  · have hworks : Works s consumer pool l loop := ⟨hl, hm.1, hm.2, hstage⟩
    obtain ⟨rest, hrest, heq⟩ := h.noted_of hworks hsign
    -- no other loop is at work
    have honly : ∀ {l' : Nat} {loop'' : Loop}, Works t consumer pool l' loop'' →
        l = l' ∧ loop'' = loop' := fun hworks' =>
      (hworks'.of_set hloops).resolve_right fun hne => hne.1 (h.one hworks hne.2)
    rw [episodes_sign hm.1 hm.2, heq]
    refine ⟨List.forall_mem_cons.mpr ⟨hfine, hrest⟩, fun hworks' => ⟨rest, ?_⟩, fun hi hj => ?_⟩
    · obtain ⟨-, rfl⟩ := honly hworks'
      rw [hcurrent hworks'.stage]
    · exact (honly hi).1.symm.trans (honly hj).1
  · rw [episodes_other fun m hm' => List.mem_singleton.mp hm' ▸ hm]
    refine h.kept fun hworks => ?_
    rcases hworks.of_set hloops with ⟨-, rfl⟩ | ⟨-, hworks⟩
    · exact absurd ⟨hsame.1.symm.trans hworks.consumer, hsame.2.symm.trans hworks.pool⟩ hm
    · exact ⟨_, hworks, rfl⟩

theorem noted_cancelled {log : List Mark} (h : ¬ Ongoing log consumer pool) :
    noted (episodes log consumer pool) .cancelled = ⟨1, 0, 0⟩ :: episodes log consumer pool := by
  cases hes : episodes log consumer pool with
  | nil => rfl
  | cons e es =>
    refine if_pos ⟨rfl, fun hended => h ⟨e, ?_, hended⟩⟩
    rw [hes]
    rfl

/-- A loss signal finds no open episode, and starts a loop. -/
theorem Within.begun {log : List Mark} (h : Within s consumer pool (episodes log consumer pool))
    (hended : ¬ Ongoing log consumer pool) {new : Loop} (hloops : t.loops = s.loops ++ [new])
    (hstage : new.stage = .sleeping) (hattempt : new.attempt = 1) :
    Within t consumer pool (noted (episodes log consumer pool) .cancelled) := by
  have hlast : ∀ {l : Nat} {loop : Loop}, Works t consumer pool l loop →
      l = s.loops.length ∧ loop = new := by
    intro l loop hworks
    have hl := hworks.get
    rw [hloops] at hl
    rcases List.getElem?_append_cases hl with hl | hlast
    · exact absurd ⟨hl, hworks.consumer, hworks.pool, hworks.stage⟩ (h.idle hended)
    · exact hlast
  rw [noted_cancelled hended]
  refine ⟨List.forall_mem_cons.mpr ⟨⟨rfl, Nat.zero_le _, Nat.zero_le _⟩, h.fine⟩,
    fun hworks => ⟨episodes log consumer pool, ?_⟩, fun hi hj => ?_⟩
  · obtain ⟨-, rfl⟩ := hlast hworks
    rw [Loop.made, if_pos hstage, hattempt]
  · exact (hlast hi).1.trans (hlast hj).1.symm

/-- Loss signals of another consumer, or on another pool. -/
theorem Within.others {es : List Episode} (h : Within s consumer pool es) {n : Nat} {new : Loop}
    (hloops : t.loops = s.loops ++ List.replicate n new)
    (hother : ¬ (new.consumer = consumer ∧ new.ownedPool = some pool)) :
    Within t consumer pool es := by
  refine h.kept fun {l loop} hworks => ?_
  have hl := hworks.get
  rw [hloops] at hl
  rcases Nat.lt_or_ge l s.loops.length with hlt | hge
  · rw [List.getElem?_append_left hlt] at hl
    exact ⟨loop, ⟨hl, hworks.consumer, hworks.pool, hworks.stage⟩, rfl⟩
  · rw [List.getElem?_append_right hge] at hl
    cases List.eq_of_mem_replicate (List.mem_of_getElem? hl)
    exact absurd ⟨hworks.consumer, hworks.pool⟩ hother

theorem Within.step {log : List Mark} (h : Within s consumer pool (episodes log consumer pool))
    (hanswering : Answering s) (hok : Spaced (s, log) event) (hrec : Recovers s t (s.marks event)) :
    Within t consumer pool (episodes (log ++ s.marks event) consumer pool) := by
  unfold Spaced at hok
  generalize s.marks event = ms at hrec hok
  cases hrec with
  | rests hloops =>
    rw [List.append_nil]
    exact h.kept fun hworks =>
      ⟨_, ⟨hloops ▸ hworks.get, hworks.consumer, hworks.pool, hworks.stage⟩, rfl⟩
  | @cancelled consumer' n hloops =>
    by_cases hm : consumer' = consumer ∧ s.channelPool = some pool
    · cases n with
      | zero =>
        rw [List.replicate_zero, List.append_nil] at hloops ⊢
        exact h.kept fun hworks =>
          ⟨_, ⟨hloops ▸ hworks.get, hworks.consumer, hworks.pool, hworks.stage⟩, rfl⟩
      | succ n =>
        obtain ⟨hended, hsingle⟩ := hok _ List.mem_cons_self rfl pool hm.2
        have hn : n = 0 := by simpa using congrArg List.length hsingle
        subst hn
        have hwithin := h.begun (hm.1 ▸ hended) hloops rfl rfl
        rw [List.replicate_one, episodes_sign hm.1 hm.2]
        exact hwithin
    · rw [episodes_other fun m hm' => List.eq_of_mem_replicate hm' ▸ hm]
      exact h.others hloops hm
  | @tries l loop hl hstage hloops =>
    obtain ⟨hpos, hle⟩ := hanswering.attempt hl
    have hmade : loop.made + 1 = loop.attempt := by
      rw [Loop.made, if_pos hstage]
      exact Nat.sub_add_cancel hpos
    refine h.turned hl (by rw [hstage]; nofun) hloops ⟨rfl, rfl⟩ nofun ⟨rfl, ?_, Nat.zero_le _⟩
      fun _ => ?_
    · exact Nat.le_trans (Nat.le_of_eq hmade) hle
    · rw [Episode.note, hmade]
      rfl
  | fenced _ _ hloops =>
    rw [List.append_nil]
    refine h.kept fun hworks => ?_
    rcases hworks.of_set hloops with ⟨-, rfl⟩ | ⟨-, hworks⟩
    · exact absurd rfl hworks.stage
    · exact ⟨_, hworks, rfl⟩
  | recovered hl hk hcaller hstage _ hloops =>
    have htrying := hanswering.trying hk hcaller hstage hl
    refine h.turned hl (by rw [htrying]; nofun) hloops ⟨rfl, rfl⟩ nofun ⟨rfl, ?_, Nat.le_refl 1⟩
      fun hnot => absurd rfl hnot
    exact Loop.made_le (hanswering.attempt hl).2
  | @fails l k loop loop' setup hl hk hcaller hstage _ hsettles hloops =>
    have htrying := hanswering.trying hk hcaller hstage hl
    rw [List.append_nil]
    refine h.kept fun hworks => ?_
    rcases hworks.of_set hloops with ⟨rfl, rfl⟩ | ⟨-, hworks⟩
    · refine ⟨loop, ⟨hl, ?_, ?_, by rw [htrying]; nofun⟩, ?_⟩
      · exact hsettles.kept.1.symm.trans hworks.consumer
      · exact hsettles.kept.2.symm.trans hworks.pool
      · rw [Loop.made, Loop.made, htrying]
        cases hsettles with
        | again => rfl
        | givesUp => rfl
        | fenced => exact absurd rfl hworks.stage
        | recovered hok => cases hok
    · exact ⟨_, hworks, rfl⟩
  | lost hl hd hstage hcause _ hloops =>
    have hdropping := hanswering.dropping hd hcause (by rw [hstage]; nofun) hl
    refine h.turned hl (by rw [hdropping]; nofun) hloops ⟨rfl, rfl⟩ nofun ⟨rfl, ?_, Nat.le_refl 1⟩
      fun hnot => absurd rfl hnot
    exact Loop.made_le (hanswering.attempt hl).2

/-! ## Runs -/

variable {w w' : State × List Mark}

theorem within (hr : Reach observe Spaced (start, []) w) :
    ∀ consumer pool, Within w.1 consumer pool (episodes w.2 consumer pool) := by
  refine hr.invariant_of
    (J := fun w => ∀ consumer pool, Within w.1 consumer pool (episodes w.2 consumer pool))
    (fun hr => answering (reach_of_observe hr)) (fun _ _ => within_start) ?_
  intro w w' event hanswering _ h hok hs consumer pool
  obtain ⟨hstep, hlog⟩ := observe_eq_some hs
  rw [hlog]
  exact (h consumer pool).step hanswering hok (hanswering.recovers (step_cases hstep))

/-- The log of a run tells what was emitted, and which setups the loops ran. -/
theorem observed {ok : State × List Mark → Event → Prop} (hr : Reach observe ok (start, []) w) :
    w.1.emitted = w.2.filterMap Mark.emission ∧
      w.1.setups.filterMap Setup.attempt = w.2.filter (·.sign = .attempt) := by
  refine hr.invariant_of (J := fun w => w.1.emitted = w.2.filterMap Mark.emission ∧
    w.1.setups.filterMap Setup.attempt = w.2.filter (·.sign = .attempt))
    (fun hr => And.intro (answering (reach_of_observe hr)) (awaited (reach_of_observe hr)))
    ⟨rfl, rfl⟩ ?_
  rintro w w' event ⟨hanswering, hawaited⟩ _ ⟨hemitted, hattempts⟩ _ hs
  obtain ⟨hstep, hlog⟩ := observe_eq_some hs
  have hsteps := step_cases hstep
  have hrec := hanswering.recovers hsteps
  rw [hlog, List.filterMap_append, List.filter_append, ← hemitted, ← hattempts]
  exact ⟨hrec.emitted hawaited hanswering.owner, hsteps.attempts⟩

/-- The budget of the recoveries: a consumer has one loop at work at most on a pool, and each of its
episodes there has one `'consumerCancelled'`, three attempts at most and one end at most. -/
structure Budget (w : State × List Mark) : Prop where
  alone : ∀ {consumer pool l l' : Nat} {loop loop' : Loop}, Works w.1 consumer pool l loop →
    Works w.1 consumer pool l' loop' → l = l'
  fine : ∀ consumer pool, ∀ e ∈ episodes w.2 consumer pool, e.Fine

/-- Signals in an open episode are counted there. -/
theorem noted_replicate (e : Episode) (es : List Episode) (hended : e.ended = 0) (n : Nat) :
    (List.replicate n Sign.cancelled).foldl noted (e :: es) =
      { e with cancelled := e.cancelled + n } :: es := by
  induction n generalizing e with
  | zero => rfl
  | succ n ih =>
    have hfirst : noted (e :: es) .cancelled = e.note .cancelled :: es :=
      if_neg fun h => h.2 hended
    rw [List.replicate_succ, List.foldl_cons, hfirst, ih (e.note .cancelled) hended]
    simp [Episode.note, Nat.add_assoc, Nat.add_comm 1]

theorem episodes_replicate {log : List Mark} {m : Mark} (hpool : m.pool = some pool) (n : Nat) :
    episodes (log ++ List.replicate n m) m.consumer pool =
      (List.replicate n m.sign).foldl noted (episodes log m.consumer pool) := by
  rw [episodes_append, List.filter_replicate_of_pos (by simp [hpool]), ← List.map_replicate,
    List.foldl_map]

/-- A step that is not `Spaced` breaks the budget. -/
theorem spaced_of_fine {log : List Mark} (h : ∀ consumer pool,
      Within s consumer pool (episodes log consumer pool))
    (hrec : Recovers s t (s.marks event))
    (hfine : ∀ consumer pool, ∀ e ∈ episodes (log ++ s.marks event) consumer pool, e.Fine) :
    Spaced (s, log) event := by
  unfold Spaced
  generalize s.marks event = ms at hrec hfine
  intro m hm hsign pool hpool
  cases hrec with
  | rests | fenced | fails => cases hm
  | tries | recovered | lost =>
    cases List.mem_singleton.mp hm
    cases hsign
  | @cancelled consumer n =>
    cases List.eq_of_mem_replicate hm
    have hcount := hfine consumer pool
    rw [episodes_replicate hpool] at hcount
    obtain ⟨n, rfl⟩ := Nat.exists_eq_succ_of_ne_zero (List.mem_replicate.mp hm).1
    by_cases hongoing : Ongoing log consumer pool
    · obtain ⟨e, he, hended⟩ := hongoing
      obtain ⟨es, hes⟩ := List.head?_eq_some_iff.mp he
      have hbefore := ((h consumer pool).fine e (hes ▸ List.mem_cons_self)).1
      rw [hes, noted_replicate e es hended] at hcount
      have hafter : e.cancelled + (n + 1) = 1 := (hcount _ List.mem_cons_self).1
      omega
    · rw [List.replicate_succ, List.foldl_cons, noted_cancelled hongoing,
        noted_replicate _ _ rfl] at hcount
      have hafter : 1 + n = 1 := (hcount _ List.mem_cons_self).1
      have hn : n = 0 := by omega
      subst hn
      exact ⟨hongoing, rfl⟩

/-- In a run in which every loss signal finds no open episode, the budget is kept in every state; and
a step keeps it if and only if that is so of the signals that it takes up. -/
theorem recovery_budget (hr : Reach observe Spaced (start, []) w) :
    Budget w ∧ ∀ event w', observe w event = some w' → (Budget w' ↔ Spaced w event) := by
  have hbudget : ∀ {w : State × List Mark}, Reach observe Spaced (start, []) w → Budget w :=
    fun hr => ⟨fun hi hj => (within hr _ _).one hi hj, fun consumer pool =>
      (within hr consumer pool).fine⟩
  refine ⟨hbudget hr, fun event w' hs => ⟨fun h => ?_, fun hok => hbudget (hr.tail hok hs)⟩⟩
  obtain ⟨hstep, hlog⟩ := observe_eq_some hs
  have hrec := (answering (reach_of_observe hr)).recovers (step_cases hstep)
  exact spaced_of_fine (within hr) hrec (hlog ▸ h.fine)

/-- A consumer on its channel, which the broker cancels; its first attempt has the channel that it
still is registered with. -/
private def cancelled : List Event :=
  [.poolInstalled, .recreateAll, .recreated, .subscribe false, .channelOpened 0, .setupContinues 0,
    .prefetched 0, .consumeOk 0 7, .setupCompletes 0, .brokerCancels 0, .loopWakes 0,
    .setupContinues 1, .prefetched 1]

/-- The second attempt succeeds. Then the channel closes, and three attempts fail. -/
theorem recovery_budget_run : ∃ w, Budget w ∧ episodes w.2 0 0 = [⟨1, 3, 1⟩, ⟨1, 2, 1⟩] := by
  have hrun : (run observe Spaced (start, []) (cancelled ++ [.setupFails 1, .loopWakes 0,
      .setupContinues 2, .prefetched 2, .consumeOk 2 8, .setupCompletes 2, .channelCloses 0,
      .loopWakes 1, .setupFails 3, .loopWakes 1, .setupFails 4, .loopWakes 1, .setupFails 5,
      .removeConsumer 0 false, .dropped 0])).any fun w =>
        decide (episodes w.2 0 0 = [⟨1, 3, 1⟩, ⟨1, 2, 1⟩]) := by
    decide +kernel
  obtain ⟨w, hs, h⟩ := (Option.any_eq_true _ _).mp hrun
  exact ⟨w, (recovery_budget (reach_of_run hs)).1, of_decide_eq_true h⟩

/-- The consume of the first attempt fails and closes the channel, which the consumer watches: a
second loop makes three more attempts. -/
theorem four_attempts : ∃ w, Reach observe anyStep (start, []) w ∧
    episodes w.2 0 0 = [⟨2, 4, 1⟩] ∧ ¬ Budget w := by
  have hrun : (run observe anyStep (start, []) (cancelled ++ [.channelCloses 0, .setupFails 1,
      .loopWakes 1, .setupFails 2, .loopWakes 0, .loopWakes 1, .setupFails 3, .loopWakes 1,
      .setupFails 4, .removeConsumer 0 false, .dropped 0])).any fun w =>
        decide (episodes w.2 0 0 = [⟨2, 4, 1⟩]) := by
    decide +kernel
  obtain ⟨w, hs, h⟩ := (Option.any_eq_true _ _).mp hrun
  have hepisodes := of_decide_eq_true h
  refine ⟨w, reach_of_run hs, hepisodes, fun hbudget => ?_⟩
  have hfine : Episode.Fine ⟨2, 4, 1⟩ := hbudget.fine 0 0 _ (hepisodes ▸ List.mem_singleton_self _)
  exact absurd hfine (by decide)

end ConsumerManager
end RabbitMQ
