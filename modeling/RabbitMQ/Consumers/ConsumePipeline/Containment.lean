import RabbitMQ.Consumers.ConsumePipeline.Results
import RabbitMQ.Utils.EmitSafely

/-! What is thrown does not keep a delivery from its settlement, nor `emit` from its listeners, as long
as the `catch` blocks get through with it.

A processor has its own `catch` block inside the one of the consume callback. What the inner block
throws in turn reaches the outer one only for a delivery that `handle` was called with: a delivery
that was released from its parking has left the consume callback. -/

namespace RabbitMQ
namespace ConsumePipeline

open Transition

variable {α : Type} {s s' : State α} {env : Env α} {sub : Subscription} {d d' : Delivery α}
  {tag id : Nat} {message : Message α} {error : Value}

/-- What the `catch` block of the processor throws in turn. -/
def escapes (sub : Subscription) (message : Message α) (error : Value) : Option Value :=
  match shouldRequeue message error sub.retryPolicy with
  | .error e => some e
  | .ok _ =>
    match describedText error with
    | .error e => some e
    | .ok _ => none

/-- What is thrown while a delivery is decoded or handled can be rendered and the retry policy asked
about it, or the outer `catch` block can do so with what the inner one throws; unless the delivery
was settled before. The policy can be asked about what expires. -/
def Contained [DecidableEq α] [ToString α] (s : State α) (input : Env α × Event α) : Prop :=
  match input.2 with
  | .undecodable tag error | .callbackRejected tag error =>
    ∀ d, s.deliveries.get? tag = some d → s.Catches d.message error
  | .processor id (.callbackRejected root error) =>
    ∀ p message startTime rest, s.processors.get? id = some p →
      p.calls.get? root = some (⟨message, startTime, .callback⟩ :: rest) →
        ∀ d sub, s.lookup message.tag = some (d, sub) →
          d.ackSettled ∨ sub.noAck ∨ Catchable sub message error ∨
            (rest = [] ∧ message.tag = root ∧
              ∀ e ∈ escapes sub message error, Catchable sub d.message e)
  | .processor id .cleanup => s.Expires id
  | _ => True

/-- The outer `catch` block is about to settle the delivery. -/
def Stage.Catching (stage : Stage) (sub : Subscription) (message : Message α) : Prop :=
  ∃ decoded error, stage = .rejected decoded error ∧ Catchable sub message error

/-- A finished delivery is resolved or about to be. -/
def Rescued (s : State α) : Prop :=
  ∀ tag ∈ s.finished, ∀ d sub, s.lookup tag = some (d, sub) → sub.noAck = false →
    s.Resolved tag ∨ d.stage.Catching sub d.message

theorem catchable_of_not_escapes (h : escapes sub message error = none) :
    Catchable sub message error := by
  unfold escapes at h
  split at h
  · cases h
  · next requeue hrequeue =>
    split at h
    · cases h
    · next text htext =>
      exact ⟨by rw [Describable, htext]; rfl, evaluable_of_shouldRequeue hrequeue⟩

variable [DecidableEq α]

/-- The `catch` block of the processor throws: nothing is reported of a call without others below it,
but that it rejected. -/
theorem settle_escapes {e : Value} (he : e ∈ escapes sub message error) (env : Env α)
    (event : SequentialProcessor.Event α) (staleTimeout : Nat) (p : SequentialProcessor.State α)
    (root startTime : Nat) :
    (SequentialProcessor.settle (config staleTimeout) (hooks env sub event) root p (.error error)
      [⟨message, startTime, .callback⟩]).2 =
        (p.removeProcessing message.messageId .failure).2 ++ [.handled root (.error e)] := by
  have hcatch : SequentialProcessor.processCatch (config staleTimeout) (hooks env sub event) p
      ⟨message, startTime, .callback⟩ error = ((p.removeProcessing message.messageId .failure).1,
        (p.removeProcessing message.messageId .failure).2, .error e) := by
    unfold escapes at he
    simp only [SequentialProcessor.processCatch, hooks]
    cases hrequeue : shouldRequeue message error sub.retryPolicy with
    | error e' =>
      rw [hrequeue] at he
      cases he
      rfl
    | ok requeue =>
      rw [hrequeue] at he
      dsimp only at he ⊢
      cases htext : describedText error with
      | error e' =>
        have hlog : (config staleTimeout).logError error = .error e' := by
          rw [SequentialProcessor.Config.logError, htext]
          rfl
        rw [htext] at he
        cases he
        rw [hlog]
      | ok text =>
        rw [htext] at he
        cases he
  simp only [SequentialProcessor.settle, hcatch]

/-- What a processor reported is resolved. -/
theorem advance_settles {sub₀ : Subscription}
    {r : SequentialProcessor.State α × List (SequentialProcessor.Output α)}
    (hsub : s.subscriptions.get? id = some sub₀) (hr : SequentialProcessor.Keeps (s.Handed id) r)
    {o : SequentialProcessor.Output α} (ho : o ∈ r.2) (hsettles : o.settles tag)
    (hl : (s.advance env id sub₀ r).lookup tag = some (d, sub)) (hnoAck : sub.noAck = false) :
    (s.advance env id sub₀ r).Resolved tag := by
  have hhanded : s.Handed id tag := by
    have hwithin := hr.2 o ho
    cases o with
    | onSuccess message _ | onFailure message _ _ _ =>
      obtain rfl : message.tag = tag := of_decide_eq_true hsettles
      exact hwithin
    | _ => cases hsettles
  have e := advance_evolves s env id sub₀ r
  obtain rfl := (e.handed hhanded).sub_eq (e.subscription _ _ hsub) d sub hl
  obtain ⟨d₀, hl₀, -⟩ := hhanded.lookup hsub
  exact settles_resolved (s := { s with processors := s.processors.set id r.1 }) hnoAck ho hsettles
    (lookup_eq_some.mp hl₀).1

/-- What a processor is done with is resolved, if nothing was dropped that needed a settlement. -/
theorem advance_ends {sub₀ : Subscription}
    {r : SequentialProcessor.State α × List (SequentialProcessor.Output α)}
    (hsub : s.subscriptions.get? id = some sub₀) (hr : SequentialProcessor.Keeps (s.Handed id) r)
    (hdrops : ∀ o ∈ r.2, s.Drops sub₀ o) {o : SequentialProcessor.Output α} (ho : o ∈ r.2)
    (hends : o.ends tag) (hl : (s.advance env id sub₀ r).lookup tag = some (d, sub))
    (hnoAck : sub.noAck = false) : (s.advance env id sub₀ r).Resolved tag := by
  cases o with
  | undecided message =>
    obtain rfl : message.tag = tag := of_decide_eq_true hends
    have hhanded : s.Handed id message.tag := hr.2 _ ho
    have e := advance_evolves s env id sub₀ r
    obtain rfl := (e.handed hhanded).sub_eq (e.subscription _ _ hsub) d sub hl
    refine e.resolved (.inl ((hdrops _ ho).resolve_right fun hno => ?_))
    cases hnoAck.symm.trans hno
  | _ => exact advance_settles hsub hr ho hends hl hnoAck

theorem removed_reports (p : SequentialProcessor.State α) (messageId : Option α)
    (cause : SequentialProcessor.Cause) :
    (p.removeProcessing messageId cause).2.foldl (State.report env sub) s = s := by
  unfold SequentialProcessor.State.removeProcessing
  split
  · rfl
  · dsimp only
    split <;> rfl

/-- What the processor could not report is in the hands of the outer `catch` block. -/
theorem advance_escapes {e : Value} (he : e ∈ escapes sub message error)
    (hd : s.deliveries.get? message.tag = some d) (env : Env α) (id staleTimeout : Nat)
    (p : SequentialProcessor.State α) (startTime : Nat) :
    (s.advance env id sub (SequentialProcessor.settle (config staleTimeout)
      (hooks env sub (.callbackRejected message.tag error)) message.tag p (.error error)
      [⟨message, startTime, .callback⟩])).deliveries.get? message.tag =
        some { d with stage := .rejected true e } := by
  have hrejected : ∀ s : State α, s.deliveries.get? message.tag = some d →
      (State.report env sub s (.handled message.tag (.error e))).deliveries.get? message.tag =
        some { d with stage := .rejected true e } := fun s hd => setStage_get? hd _
  rw [State.advance, settle_escapes he, List.foldl_append, removed_reports]
  exact hrejected _ hd

variable [ToString α]

/-- A delivery that is left to the outer `catch` block stays there until that runs. -/
theorem Steps.catching {event : Event α} (H : Steps env s event s') (ha : Accounted s)
    (hrunning : Running s) (hl : s.lookup tag = some (d, sub)) (hnoAck : sub.noAck = false)
    (hcatching : d.stage.Catching sub d.message) (hl' : s'.lookup tag = some (d', sub)) :
    s'.Resolved tag ∨ d'.stage.Catching sub d'.message := by
  obtain ⟨decoded, error, hstage, hc⟩ := hcatching
  obtain ⟨hget, -⟩ := lookup_eq_some.mp hl
  obtain ⟨hget', -⟩ := lookup_eq_some.mp hl'
  have hplace := place?_of_get? hget
  have htags := fun t d hd => (ha.attributed.delivery t d hd).1
  by_cases hevent : event.delivery? = some tag
  · cases H with
    | subscribe | deliver | ackMessage | nackMessage => cases hevent
    | decoded hd hstage' | undecodable hd hstage' | callbackResolved hd hstage'
    | callbackRejected hd hstage' =>
      cases hevent
      cases hl.symm.trans hd
      cases hstage.symm.trans hstage'
    | @caught tag' d₀ sub₀ decoded' error' hd hstage' =>
      cases hevent
      cases hl.symm.trans hd
      cases hstage.symm.trans hstage'
      have htag := htags _ _ hget
      obtain ⟨text, htext⟩ := hc.1.text
      obtain ⟨requeue, hrequeue⟩ := hc.2.shouldRequeue_ok
      left
      refine (setStage_evolves fun _ _ _ => rfl).resolved ?_
      simp only [State.catchError, htext, hrequeue]
      exact htag ▸ settleAck_resolved (htag.symm ▸ hget) hnoAck env _
    | processor hsub hp hsequential hlater hs =>
      -- a processor that awaits the delivery has not returned it
      rcases (SequentialProcessor.step_cases hs).answers hlater with ⟨root, hroot, hmem, -⟩ | ⟨hnone, -⟩
      · cases hevent.symm.trans hroot
        have hhandling := hrunning.called _ _ hp _ hmem
        rw [hplace, hstage] at hhandling
        cases hhandling
      · cases hevent.symm.trans hnone
  · right
    have hsame : s'.place? tag = s.place? tag := by
      by_cases hdeliver : ∃ id message, event = .deliver id message
      · obtain ⟨id, message, rfl⟩ := hdeliver
        cases H with
        | deliver hsub hfresh =>
          rw [place?_set, if_neg]
          rintro rfl
          exact hfresh (OrderedMap.mem_of_get? hget)
      · exact (H.moves hrunning htags fun id m heq => hdeliver ⟨id, m, heq⟩).1.others tag hevent
    rw [place?_of_get? hget', hplace] at hsame
    obtain ⟨-, hsame⟩ := Prod.mk.inj (Option.some.inj hsame)
    obtain ⟨d₁, hd₁, e⟩ := H.evolves.delivery tag d hget
    cases hget'.symm.trans hd₁
    exact ⟨decoded, error, hsame.trans hstage, e.message.symm ▸ hc⟩

/-- A handler throws in a processor: its delivery is settled, or left to the outer `catch` block. -/
theorem handler_throws {sub₀ : Subscription} {p : SequentialProcessor.State α} {staleTimeout : Nat}
    {event : SequentialProcessor.Event α}
    {r : SequentialProcessor.State α × List (SequentialProcessor.Output α)} (ha : Accounted s)
    (hsub : s.subscriptions.get? id = some sub₀) (hp : s.processors.get? id = some p)
    (hs : SequentialProcessor.step (config staleTimeout) p (hooks env sub₀ event, event) = some r)
    (hok : Contained s (env, .processor id event)) (hthrow : throwing p event = some tag)
    (hl : (s.advance env id sub₀ r).lookup tag = some (d', sub)) (hnoAck : sub.noAck = false) :
    ((s.advance env id sub₀ r).finish tag).Resolved tag ∨ d'.stage.Catching sub d'.message := by
  have hhanded := throwing_handed ha.attributed hp hthrow
  obtain ⟨d, hld, -⟩ := hhanded.lookup hsub
  have hget := (lookup_eq_some.mp hld).1
  have e := advance_evolves s env id sub₀ r
  obtain rfl := (e.handed hhanded).sub_eq (e.subscription _ _ hsub) d' sub hl
  cases event with
  | callbackRejected root error =>
    have hsteps := SequentialProcessor.step_cases hs
    have hr : SequentialProcessor.Keeps (s.Handed id) r :=
      hsteps.within (ha.attributed.processor id p hp) nofun
    cases hsteps with
    | @callbackRejected _ message startTime rest _ hcall =>
      simp only [throwing, hcall, Option.some.injEq] at hthrow
      subst hthrow
      have hcatchable : Catchable sub message error → ((s.advance env id sub (SequentialProcessor.settle
          (config staleTimeout) (hooks env sub (.callbackRejected root error)) root p (.error error)
          (⟨message, startTime, .callback⟩ :: rest))).finish message.tag).Resolved message.tag := by
        intro hc
        let frame : SequentialProcessor.Frame α := ⟨message, startTime, .callback⟩
        have hframe : Catchable sub frame.message error := hc
        obtain ⟨requeue, info, ho⟩ := failure_reported hframe env (.callbackRejected root error)
          (config staleTimeout) p root rest
        exact (finish_evolves _ _).resolved
          (advance_settles hsub hr ho (decide_eq_true rfl) hl hnoAck)
      rcases hok p message startTime rest hp hcall d sub hld with hset | hno | hc | ⟨rfl, rfl, hc⟩
      · have hsettled : s.Resolved message.tag := .inl ((Option.any_eq_true _ _).mpr ⟨d, hget, hset⟩)
        exact .inl ((e.trans (finish_evolves ..)).resolved hsettled)
      · cases hnoAck.symm.trans hno
      · exact .inl (hcatchable hc)
      · cases hescapes : escapes sub message error with
        | none => exact .inl (hcatchable (catchable_of_not_escapes hescapes))
        | some e' =>
          have hadvanced := advance_escapes hescapes hget env id staleTimeout p startTime
          cases (lookup_eq_some.mp hl).1.symm.trans hadvanced
          exact .inr ⟨true, e', rfl, hc e' hescapes⟩
  | _ => cases hthrow

/-- A delivery that finishes in a step is settled, or left to the outer `catch` block. -/
theorem Steps.finishes {event : Event α} (H : Steps env s event s') (ha : Accounted s)
    (hok : Contained s (env, event)) (ht : tag ∈ s'.finished) (hbefore : tag ∉ s.finished)
    (hl' : s'.lookup tag = some (d', sub)) (hnoAck : sub.noAck = false) :
    s'.Resolved tag ∨ d'.stage.Catching sub d'.message := by
  have hget' := (lookup_eq_some.mp hl').1
  have htags := fun t d hd => (ha.attributed.delivery t d hd).1
  -- the delivery and its subscription as they were
  have hold : ∀ {d sub₀}, s.lookup tag = some (d, sub₀) → sub₀ = sub := by
    intro d sub₀ hl
    obtain ⟨hget, hsub⟩ := lookup_eq_some.mp hl
    obtain ⟨d₁, hd₁, e⟩ := H.evolves.delivery tag d hget
    cases hget'.symm.trans hd₁
    have hsub' := (lookup_eq_some.mp hl').2
    rw [e.subscription] at hsub'
    exact Option.some.inj ((H.evolves.subscription _ _ hsub).symm.trans hsub')
  have hthrown : ∀ {d sub₀ decoded error}, s.lookup tag = some (d, sub₀) →
      (∀ d, s.deliveries.get? tag = some d → s.Catches d.message error) →
      s' = (s.finish tag).setStage tag (.rejected decoded error) →
        s'.Resolved tag ∨ d'.stage.Catching sub d'.message := by
    intro d sub₀ decoded error hl hcatches heq
    have hget := (lookup_eq_some.mp hl).1
    obtain rfl := hold hl
    have htag := htags _ _ hget
    rcases hcatches d hget d sub₀ (htag.symm ▸ hl) with hset | hno | hc
    · exact .inl (H.evolves.resolved (.inl ((Option.any_eq_true _ _).mpr ⟨d, hget, hset⟩)))
    · cases hnoAck.symm.trans hno
    · have hset : s'.deliveries.get? tag = some { d with stage := .rejected decoded error } := by
        rw [heq]
        exact setStage_get? (s := s.finish tag) hget _
      cases hget'.symm.trans hset
      exact .inr ⟨decoded, error, rfl, hc⟩
  cases H with
  | subscribe | deliver => exact absurd ht hbefore
  | @decoded tag' d₀ sub₀ hd hstage =>
    left
    unfold State.processMessage at ht hl' ⊢
    dsimp only at ht hl' ⊢
    split at ht
    · next p hsequential hp =>
      rw [hsequential, hp] at hl'
      rcases (mem_advance_finished _).mp ht with ht | ⟨o, ho, hends⟩
      · exact absurd (setStage_finished _ _ _ ▸ ht) hbefore
      · obtain ⟨hsub, hkeeps⟩ := ha.delivers _ hd hp
        refine advance_ends hsub hkeeps (fun o ho => ?_) ho hends hl' hnoAck
        cases o with
        | undecided message => exact absurd ho SequentialProcessor.deliver_undecided
        | _ => trivial
    · exact absurd (setStage_finished _ _ _ ▸ ht) hbefore
  | undecodable hd hstage =>
    rw [setStage_finished] at ht
    obtain rfl := (List.mem_cons.mp ht).resolve_right hbefore
    exact hthrown hd hok rfl
  | @callbackResolved tag' d₀ sub₀ hd hstage =>
    have hget := (lookup_eq_some.mp hd).1
    obtain rfl := htags _ _ hget
    have hfinished : (s.complete env d₀ sub₀).finished = d₀.message.tag :: s.finished := by
      unfold State.complete
      dsimp only
      split <;> exact (setStage_finished ..).trans (congrArg _ (settleAck_finished ..))
    rw [hfinished] at ht
    obtain rfl := (List.mem_cons.mp ht).resolve_right hbefore
    obtain rfl := hold hd
    left
    unfold State.complete
    dsimp only
    split
    · exact (setStage_evolves fun _ _ _ => rfl).resolved
        ((finish_evolves _ _).resolved (settleAck_resolved hget hnoAck env .ack))
    · exact (setStage_evolves fun _ _ _ => rfl).resolved
        ((finish_evolves _ _).resolved (settleAck_resolved hget hnoAck env .ack))
  | callbackRejected hd hstage =>
    rw [setStage_finished] at ht
    obtain rfl := (List.mem_cons.mp ht).resolve_right hbefore
    exact hthrown hd hok rfl
  | caught =>
    rw [setStage_finished, catchError_finished] at ht
    exact absurd ht hbefore
  | @processor id sub₀ p staleTimeout event r hsub hp hsequential hlater hs =>
    have hr : SequentialProcessor.Keeps (s.Handed id) r :=
      (SequentialProcessor.step_cases hs).within (ha.attributed.processor id p hp)
        fun message hm => absurd hm (hlater message)
    have hdrops : ∀ o ∈ r.2, s.Drops sub₀ o :=
      expires_drops ha.attributed hsub hp hsequential hs hlater fun hcleanup => by
        subst hcleanup
        exact hok
    have hreported : ∀ {d'}, tag ∈ (s.advance env id sub₀ r).finished →
        (s.advance env id sub₀ r).lookup tag = some (d', sub) →
          (s.advance env id sub₀ r).Resolved tag := by
      intro d' ht hl
      rcases (mem_advance_finished r).mp ht with ht | ⟨o, ho, hends⟩
      · exact absurd ht hbefore
      · exact advance_ends hsub hr hdrops ho hends hl hnoAck
    cases hthrow : throwing p event with
    | none =>
      rw [hthrow] at ht hl'
      exact .inl (hreported ht hl')
    | some t =>
      rw [hthrow] at ht hl'
      rcases List.mem_cons.mp ht with rfl | ht
      · exact handler_throws ha hsub hp hs hok hthrow hl' hnoAck
      · exact .inl ((finish_evolves _ _).resolved (hreported ht hl'))
  | ackMessage =>
    unfold State.ackMessage at ht
    split at ht
    · exact absurd ht hbefore
    · exact absurd (settle_finished .. ▸ ht) hbefore
  | nackMessage =>
    unfold State.nackMessage at ht
    split at ht
    · exact absurd ht hbefore
    · exact absurd (settle_finished .. ▸ ht) hbefore

theorem Steps.rescued {event : Event α} (H : Steps env s event s') (ha : Accounted s)
    (hrunning : Running s) (hok : Contained s (env, event)) (h : Rescued s) : Rescued s' := by
  intro tag ht d' sub hl' hnoAck
  by_cases hbefore : tag ∈ s.finished
  · obtain ⟨d, hl⟩ := lookup_before ha.attributed H.evolves hl' (ha.known tag hbefore)
    rcases h tag hbefore d sub hl hnoAck with hres | hcatching
    · exact .inl (H.evolves.resolved hres)
    · exact H.catching ha hrunning hl hnoAck hcatching hl'
  · exact H.finishes ha hok ht hbefore hl' hnoAck

theorem rescued (hr : Reach step Contained start s) : Rescued s :=
  hr.invariant_of (I := fun s => Accounted s ∧ Running s) (fun hr => ⟨accounted hr, running hr⟩)
    (nofun : Rescued (start : State α)) fun h _ hs hok hstep =>
      (step_cases hstep).rescued h.1 h.2 hok hs

/-- In a run in which the `catch` blocks get through with everything thrown, or the outer one with
what the inner one throws, a delivery that is finished was settled exactly once, unless its `ack` or
`nack` threw or the `catch` block is still to come. And `emit` invokes every listener once, in order,
and returns, if and only if the log lines can render what the listeners throw (for an 'error', if
somebody listens and nobody throws). -/
theorem thrown_contained (hr : Reach step Contained start s) (hl : s.lookup tag = some (d, sub)) :
    (sub.noAck = false → tag ∈ s.finished → d.stage.throwing = false → tag ∉ s.refused →
      (s.settlementsOf tag).length = 1) ∧
    ∀ event argument listeners,
      (EmitSafely.emit event argument listeners).Complete listeners ↔
        EmitSafely.Containable event listeners := by
  refine ⟨fun hnoAck hfinished hquiet hrefused => ?_, EmitSafely.emit_complete_iff⟩
  have ha := accounted hr
  rw [ha.counted.count]
  rcases rescued hr tag hfinished d sub hl hnoAck with (hset | href) | ⟨_, _, hstage, -⟩
  · rw [hset]
    rfl
  · exact absurd href hrefused
  · rw [hstage] at hquiet
    cases hquiet

/-- A plain and a sequential handler that throw this, up to the end of the `catch` blocks. -/
private def throwingRun (error : Value) : List (Env String × Event String) :=
  [.subscribe 0 ⟨7, false, .once, none⟩, .subscribe 1 ⟨8, false, .once, some 30000⟩,
    .deliver 0 { tag := 1 }, .decoded 1, .callbackRejected 1 error, .caught 1,
    .deliver 1 { tag := 2 }, .decoded 2, .processor 1 (.callbackRejected 2 error)].map (Env.calm, ·)

/-- Both throw a symbol, and so does a listener. -/
theorem thrown_contained_run : ∃ s : State String, (s.settlementsOf 1).length = 1 ∧
    (s.settlementsOf 2).length = 1 ∧
    (EmitSafely.emit "messageFailed" .undefined [.throws (.symbol "Symbol(a)"), .pending]).Complete
      [.throws (.symbol "Symbol(a)"), .pending] := by
  have hcatchable : ∀ (sub : Subscription) (message : Message String),
      message.deliveryCount ≠ .unconvertible → Catchable sub message (.symbol "Symbol(a)") := by
    intro sub message hcount
    have hretriable : Retriable sub.retryPolicy (.symbol "Symbol(a)") := .inr rfl
    exact ⟨rfl, hretriable.evaluable hcount⟩
  have hok : ∀ i ∈ throwingRun (.symbol "Symbol(a)"), ∀ s : State String, s.Convertible →
      Contained s i := by
    intro i hi s hconvertible
    obtain ⟨event, hevent, rfl⟩ := List.mem_map.mp hi
    simp only [List.mem_cons, List.not_mem_nil, or_false] at hevent
    rcases hevent with rfl | rfl | rfl | rfl | rfl | rfl | rfl | rfl | rfl
    · trivial
    · trivial
    · trivial
    · trivial
    · intro d hd d' sub hl
      exact .inr (.inr (hcatchable sub d.message (hconvertible.delivery hd)))
    · trivial
    · trivial
    · trivial
    · intro p message startTime rest hp hcall d sub hl
      have hcount := hconvertible.frame hp hcall List.mem_cons_self
      exact .inr (.inr (.inl (hcatchable sub message hcount)))
  have hrun : (run step (fun s _ => s.Convertible) start
      (throwingRun (.symbol "Symbol(a)"))).any fun s => (s.lookup 1).any (fun (d, sub) => decide (sub.noAck = false ∧ 1 ∈ s.finished ∧
        d.stage.throwing = false ∧ 1 ∉ s.refused)) &&
      (s.lookup 2).any (fun (d, sub) => decide (sub.noAck = false ∧ 2 ∈ s.finished ∧
        d.stage.throwing = false ∧ 2 ∉ s.refused)) := by decide +kernel
  obtain ⟨s, hs, h⟩ := (Option.any_eq_true _ _).mp hrun
  obtain ⟨hfirst, hsecond⟩ := (Bool.and_eq_true _ _).mp h
  obtain ⟨⟨d₁, sub₁⟩, hl₁, h₁⟩ := (Option.any_eq_true _ _).mp hfirst
  obtain ⟨⟨d₂, sub₂⟩, hl₂, h₂⟩ := (Option.any_eq_true _ _).mp hsecond
  obtain ⟨hnoAck₁, hfinished₁, hquiet₁, hrefused₁⟩ := of_decide_eq_true h₁
  obtain ⟨hnoAck₂, hfinished₂, hquiet₂, hrefused₂⟩ := of_decide_eq_true h₂
  have hreach := reach_of_run_of_imp hok hs
  refine ⟨s, (thrown_contained hreach hl₁).1 hnoAck₁ hfinished₁ hquiet₁ hrefused₁,
    (thrown_contained hreach hl₂).1 hnoAck₂ hfinished₂ hquiet₂ hrefused₂,
    ((thrown_contained hreach hl₁).2 _ _ _).mpr ?_⟩
  rw [EmitSafely.Containable, if_neg (by decide)]
  intro outcome houtcome
  rcases List.mem_pair.mp houtcome with rfl | rfl
  · exact rfl
  · trivial

/-- Both throw a value with no string conversion: the first delivery is left without a settlement. A
listener that throws it starves the next one. -/
theorem thrown_uncontained : (∃ (s : State String) (d : Delivery String) (sub : Subscription),
      Reach step anyStep start s ∧ s.lookup 1 = some (d, sub) ∧ sub.noAck = false ∧
        1 ∈ s.finished ∧ d.stage.throwing = false ∧ 1 ∉ s.refused ∧
        (s.settlementsOf 1).length = 0) ∧
    (EmitSafely.emit "messageFailed" .undefined [.throws .bare, .returns]).invoked = [0] := by
  have hrun : (run step anyStep start (throwingRun .bare)).any fun s =>
      (s.lookup 1).any fun (d, sub) => decide (sub.noAck = false ∧ 1 ∈ s.finished ∧
        d.stage.throwing = false ∧ 1 ∉ s.refused ∧ (s.settlementsOf 1).length = 0) := by
    decide +kernel
  obtain ⟨s, hs, h⟩ := (Option.any_eq_true _ _).mp hrun
  obtain ⟨⟨d, sub⟩, hl, h⟩ := (Option.any_eq_true _ _).mp h
  exact ⟨⟨s, d, sub, reach_of_run hs, hl, of_decide_eq_true h⟩, by decide +kernel⟩

end ConsumePipeline
end RabbitMQ
