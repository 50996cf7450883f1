import RabbitMQ.Consumers.ConsumePipeline.Stages
import RabbitMQ.Consumers.SequentialProcessor.Retention

/-! In whose hands a delivery of a sequential subscription is.

Its content is being decoded, or its handler has settled, or the processor of its subscription
retains it. A step of the pipeline moves it along this way, unless the step is a `dispose`. -/

namespace RabbitMQ
namespace ConsumePipeline

open Transition

variable {α : Type} {s s' : State α} {env : Env α} {sub : Subscription} {d : Delivery α}
  {tag id t : Nat}

/-- The subscription of a delivery. -/
def State.subscriptionOf (s : State α) (tag : Nat) : Option Nat := (s.place? tag).map Prod.fst

theorem subscriptionOf_of_lookup (hl : s.lookup tag = some (d, sub)) :
    s.subscriptionOf tag = some d.subscription := by
  rw [State.subscriptionOf, place?_of_get? (lookup_eq_some.mp hl).1]
  rfl

/-! ## What is finished -/

theorem settleAck_finished (env : Env α) (sub : Subscription) (tag : Nat) (action : Action) :
    (s.settleAck env sub tag action).finished = s.finished := by
  unfold State.settleAck
  split
  · rfl
  · exact settle_finished ..

theorem catchError_finished (env : Env α) (sub : Subscription) (message : Message α)
    (error : Value) : (s.catchError env sub message error).finished = s.finished := by
  unfold State.catchError
  split
  · rfl
  · split
    · rfl
    · exact settleAck_finished ..

/-- A delivery is finished when it is reported, or dropped by a sweep. -/
theorem mem_report_finished (o : SequentialProcessor.Output α) :
    t ∈ (State.report env sub s o).finished ↔ t ∈ s.finished ∨ o.ends t := by
  cases o with
  | onSuccess message info =>
    simp only [State.report, State.finish, settleAck_finished, List.mem_cons,
      SequentialProcessor.Output.ends, SequentialProcessor.Output.settles, decide_eq_true_eq]
    rw [or_comm, eq_comm]
  | onFailure message error requeue info =>
    simp only [State.report, State.finish, settleAck_finished, List.mem_cons,
      SequentialProcessor.Output.ends, SequentialProcessor.Output.settles, decide_eq_true_eq]
    rw [or_comm, eq_comm]
  | undecided message =>
    simp only [State.report, State.finish, List.mem_cons, SequentialProcessor.Output.ends,
      decide_eq_true_eq]
    rw [or_comm, eq_comm]
  | handled root result =>
    cases result <;> simp [State.report, setStage_finished, SequentialProcessor.Output.ends,
      SequentialProcessor.Output.settles]
  | _ => simp [State.report, SequentialProcessor.Output.ends, SequentialProcessor.Output.settles]

theorem mem_reports_finished (out : List (SequentialProcessor.Output α)) :
    t ∈ (out.foldl (State.report env sub) s).finished ↔
      t ∈ s.finished ∨ ∃ o ∈ out, o.ends t := by
  induction out generalizing s with
  | nil => simp
  | cons o out ih =>
    rw [List.foldl_cons, ih, mem_report_finished, or_assoc]
    simp

theorem mem_advance_finished
    (r : SequentialProcessor.State α × List (SequentialProcessor.Output α)) :
    t ∈ (s.advance env id sub r).finished ↔ t ∈ s.finished ∨ ∃ o ∈ r.2, o.ends t :=
  mem_reports_finished r.2

theorem throwing_of_throws {p : SequentialProcessor.State α} {event : SequentialProcessor.Event α}
    (h : event.Throws p t) : throwing p event = some t := by
  cases event with
  | callbackRejected root error =>
    obtain ⟨stack, hcall, htop⟩ := h
    match stack, hcall, htop with
    | ⟨message, _, .callback⟩ :: _, hcall, htop =>
      simp only [throwing, hcall]
      exact congrArg some (of_decide_eq_true htop)
  | _ => exact h.elim

/-! ## What is refused -/

/-- No delivery is new, and every refusal that is new is one of the environment. -/
structure Refuses (env : Env α) (s s' : State α) : Prop where
  known : ∀ t ∈ s'.deliveries, t ∈ s.deliveries
  refused : ∀ t ∈ s'.refused, t ∈ s.refused ∨ (t ∈ s.deliveries ∧ ∃ action, env.refuses t action)

theorem Refuses.of_eq (hdeliveries : s'.deliveries = s.deliveries) (h : s'.refused = s.refused) :
    Refuses env s s' :=
  ⟨fun _ ht => hdeliveries ▸ ht, fun _ ht => .inl (h ▸ ht)⟩

theorem Refuses.trans {s'' : State α} (h : Refuses env s s') (h' : Refuses env s' s'') :
    Refuses env s s'' where
  known t ht := h.known t (h'.known t ht)
  refused t ht := by
    rcases h'.refused t ht with ht | ⟨ht, hrefuses⟩
    · exact h.refused t ht
    · exact .inr ⟨h.known t ht, hrefuses⟩

/-- Writing a delivery that is there. -/
theorem Refuses.put {d' : Delivery α} (hd : s.deliveries.get? tag = some d)
    (hdeliveries : s'.deliveries = s.deliveries.set tag d') (h : s'.refused = s.refused) :
    Refuses env s s' where
  known t ht := by
    rw [hdeliveries] at ht
    rcases OrderedMap.mem_set.mp ht with rfl | ht
    · exact OrderedMap.mem_of_get? hd
    · exact ht
  refused t ht := .inl (h ▸ ht)

theorem settle_refuses (channel tag : Nat) (action : Action) (origin : Origin) :
    Refuses env s (s.settle env channel tag action origin) := by
  unfold State.settle
  split
  · exact .of_eq rfl rfl
  · next d hd =>
    split
    · exact .of_eq rfl rfl
    · split
      · next hrefuses =>
        refine ⟨fun t ht => ht, fun t ht => ?_⟩
        rcases List.mem_cons.mp ht with rfl | ht
        · exact .inr ⟨OrderedMap.mem_of_get? hd, action, hrefuses⟩
        · exact .inl ht
      · exact .put hd rfl rfl

theorem settleAck_refuses (sub : Subscription) (tag : Nat) (action : Action) :
    Refuses env s (s.settleAck env sub tag action) := by
  unfold State.settleAck
  split
  · exact .of_eq rfl rfl
  · exact settle_refuses ..

theorem setStage_refuses (stage : Stage) : Refuses env s (s.setStage tag stage) := by
  unfold State.setStage
  split
  · exact .of_eq rfl rfl
  · next d hd => exact .put hd rfl rfl

theorem report_refuses (o : SequentialProcessor.Output α) :
    Refuses env s (State.report env sub s o) := by
  cases o with
  | onSuccess | onFailure => exact (settleAck_refuses ..).trans (.of_eq rfl rfl)
  | handled root result => cases result <;> exact setStage_refuses _
  | _ => exact .of_eq rfl rfl

theorem advance_refuses (r : SequentialProcessor.State α × List (SequentialProcessor.Output α)) :
    Refuses env s (s.advance env id sub r) := by
  have hreports : ∀ (out : List (SequentialProcessor.Output α)) (s : State α),
      Refuses env s (out.foldl (State.report env sub) s) := by
    intro out
    induction out with
    | nil => exact fun s => .of_eq rfl rfl
    | cons o out ih => exact fun s => (report_refuses o).trans (ih _)
  obtain ⟨hknown, hrefused⟩ := hreports r.2 { s with processors := s.processors.set id r.1 }
  exact ⟨hknown, hrefused⟩

theorem catchError_refuses (sub : Subscription) (message : Message α) (error : Value) :
    Refuses env s (s.catchError env sub message error) := by
  unfold State.catchError
  split
  · exact .of_eq rfl rfl
  · split
    · exact .of_eq rfl rfl
    · exact settleAck_refuses ..

variable [DecidableEq α] [ToString α]

theorem Steps.refuses {event : Event α} (H : Steps env s event s')
    (hdeliver : ∀ id message, event ≠ .deliver id message) : Refuses env s s' := by
  cases H with
  | subscribe => exact .of_eq rfl rfl
  | deliver => exact absurd rfl (hdeliver _ _)
  | decoded =>
    simp only [State.processMessage]
    split
    · exact (setStage_refuses _).trans (advance_refuses _)
    · exact setStage_refuses _
  | @undecodable tag _ _ _ | @callbackRejected tag _ _ _ =>
    have hfinish : Refuses env s (s.finish tag) := .of_eq rfl rfl
    exact hfinish.trans (setStage_refuses _)
  | @callbackResolved tag d sub =>
    have hfinish : Refuses env s
        ((s.settleAck env sub d.message.tag .ack).finish d.message.tag) :=
      (settleAck_refuses ..).trans (.of_eq rfl rfl)
    simp only [State.complete]
    split
    · exact hfinish.trans (setStage_refuses _)
    · exact hfinish.trans (setStage_refuses _)
  | caught => exact (catchError_refuses ..).trans (setStage_refuses _)
  | @processor id sub p _ event r =>
    have hadvance : Refuses env s (s.advance env id sub r) := advance_refuses r
    cases throwing p event with
    | none => exact hadvance
    | some tag => exact hadvance.trans (.of_eq rfl rfl)
  | ackMessage =>
    unfold State.ackMessage
    split
    · exact .of_eq rfl rfl
    · exact settle_refuses ..
  | nackMessage =>
    unfold State.nackMessage
    split
    · exact .of_eq rfl rfl
    · exact settle_refuses ..

/-- Subscriptions and deliveries stay what they are. -/
theorem Steps.evolves {event : Event α} (H : Steps env s event s') : Evolves s s' := by
  cases H with
  | @subscribe id sub hfresh =>
    refine ⟨fun i sub' hi => ?_, fun _ d hd => ⟨d, hd, .refl d⟩, fun _ h => h⟩
    rw [OrderedMap.get?_set, if_neg]
    · exact hi
    · rintro rfl
      exact hfresh (OrderedMap.mem_of_get? hi)
  | @deliver id sub message hsub hfresh =>
    refine ⟨fun _ _ h => h, fun tag d hd => ⟨d, ?_, .refl d⟩, fun _ h => h⟩
    rw [OrderedMap.get?_set, if_neg]
    · exact hd
    · rintro rfl
      exact hfresh (OrderedMap.mem_of_get? hd)
  | @decoded tag d sub =>
    have hstage : Evolves s (s.setStage d.message.tag .handling) :=
      setStage_evolves fun _ _ _ => rfl
    simp only [State.processMessage]
    split
    · exact hstage.trans (advance_evolves ..)
    · exact hstage
  | undecodable hd hstage =>
    refine (finish_evolves ..).trans (setStage_evolves fun d' hd' hdecoded => ?_)
    cases (lookup_eq_some.mp hd).1.symm.trans hd'
    rw [hstage] at hdecoded
    cases hdecoded
  | @callbackResolved tag d sub =>
    have hacked := (settleAck_evolves s env sub d.message.tag .ack).trans
      (finish_evolves _ d.message.tag)
    simp only [State.complete]
    split
    · exact hacked.trans (setStage_evolves fun _ _ _ => rfl)
    · exact hacked.trans (setStage_evolves fun _ _ _ => rfl)
  | callbackRejected =>
    exact (finish_evolves ..).trans (setStage_evolves fun _ _ _ => rfl)
  | caught => exact (catchError_evolves ..).trans (setStage_evolves fun _ _ _ => rfl)
  | @processor id sub p _ event r =>
    have hadvance := advance_evolves s env id sub r
    cases throwing p event with
    | none => exact hadvance
    | some tag => exact hadvance.trans (finish_evolves ..)
  | ackMessage =>
    unfold State.ackMessage
    split
    · exact .refl s
    · exact settle_evolves ..
  | nackMessage =>
    unfold State.nackMessage
    split
    · exact .refl s
    · exact settle_evolves ..

theorem evolves_of_reach {ok : State α → Env α × Event α → Prop} (h : Reach step ok s s') :
    Evolves s s' := by
  induction h with
  | refl => exact .refl _
  | tail _ _ hs ih => exact ih.trans (step_cases hs).evolves

/-- What is finished stays finished. -/
theorem Steps.finished_mono {event : Event α} (H : Steps env s event s') (ht : t ∈ s.finished) :
    t ∈ s'.finished := by
  cases H with
  | subscribe | deliver => exact ht
  | decoded =>
    simp only [State.processMessage]
    split
    · exact (mem_advance_finished _).mpr (.inl (by rwa [setStage_finished]))
    · rwa [setStage_finished]
  | undecodable | callbackRejected =>
    rw [setStage_finished]
    exact List.mem_cons_of_mem _ ht
  | callbackResolved =>
    simp only [State.complete]
    split
    · rw [setStage_finished]
      exact List.mem_cons_of_mem _ (by rwa [settleAck_finished])
    · rw [setStage_finished]
      exact List.mem_cons_of_mem _ (by rwa [settleAck_finished])
  | caught => rwa [setStage_finished, catchError_finished]
  | @processor id sub p staleTimeout event r =>
    have hadvance : t ∈ (s.advance env id sub r).finished :=
      (mem_advance_finished _).mpr (.inl ht)
    cases throwing p event with
    | none => exact hadvance
    | some tag => exact List.mem_cons_of_mem _ hadvance
  | ackMessage =>
    unfold State.ackMessage
    split
    · exact ht
    · rwa [settle_finished]
  | nackMessage =>
    unfold State.nackMessage
    split
    · exact ht
    · rwa [settle_finished]

/-! ## What a step does to the processors -/

/-- What a step of the pipeline can be for the processors: one of them starts, takes a delivery or
goes on. -/
inductive ProcessorCases (env : Env α) (s s' : State α) : Event α → Prop
  | kept {event : Event α} (hprocessors : s'.processors = s.processors)
      (hdecoded : ∀ tag d sub, event = .decoded tag → s.lookup tag = some (d, sub) →
        sub.sequential.isSome → d.subscription ∉ s.processors) : ProcessorCases env s s' event
  | starts {id : Nat} {sub : Subscription} (hfresh : id ∉ s.subscriptions)
      (hprocessors : s'.processors = s.processors.set id SequentialProcessor.start) :
      ProcessorCases env s s' (.subscribe id sub)
  | takes {tag : Nat} {d : Delivery α} {sub : Subscription} {p : SequentialProcessor.State α}
      {r : SequentialProcessor.State α × List (SequentialProcessor.Output α)}
      (hd : s.lookup tag = some (d, sub)) (hstage : d.stage = .decoding)
      (hp : s.processors.get? d.subscription = some p)
      (hr : r = SequentialProcessor.deliver (hooks env sub (.handle d.message)) p d.message)
      (hprocessors : s'.processors = s.processors.set d.subscription r.1)
      (hreported : ∀ o ∈ r.2, ∀ t, o.ends t → t ∈ s'.finished) :
      ProcessorCases env s s' (.decoded tag)
  | moves {id : Nat} {sub : Subscription} {p : SequentialProcessor.State α}
      {c : SequentialProcessor.Config} {event : SequentialProcessor.Event α}
      {r : SequentialProcessor.State α × List (SequentialProcessor.Output α)}
      (hp : s.processors.get? id = some p)
      (hlater : ∀ message, event ≠ .handle message)
      (hs : SequentialProcessor.Steps c (hooks env sub event) p event r)
      (hprocessors : s'.processors = s.processors.set id r.1)
      (hreported : ∀ o ∈ r.2, ∀ t, o.ends t → t ∈ s'.finished)
      (hthrown : ∀ t, event.Throws p t → t ∈ s'.finished) :
      ProcessorCases env s s' (.processor id event)

theorem Steps.processors {event : Event α} (H : Steps env s event s') :
    ProcessorCases env s s' event := by
  cases H with
  | @subscribe id sub hfresh =>
    cases hsequential : sub.sequential with
    | none => exact .kept (by simp) (fun _ _ _ heq => by cases heq)
    | some staleTimeout => exact .starts hfresh (by simp)
  | deliver => exact .kept rfl (fun _ _ _ heq => by cases heq)
  | @decoded tag d sub hd hstage =>
    have hset : (s.setStage d.message.tag .handling).processors = s.processors :=
      (setStage_processors _).2
    simp only [State.processMessage]
    split
    · next p hstale hp =>
      rw [hset] at hp
      have hprocessors : ((s.setStage d.message.tag .handling).advance env d.subscription sub
          (SequentialProcessor.deliver (hooks env sub (.handle d.message)) p d.message)).processors = _ :=
        (advance_processors _).2
      rw [hset] at hprocessors
      exact .takes hd hstage hp rfl hprocessors fun o ho t ht =>
        (mem_advance_finished _).mpr (.inr ⟨o, ho, ht⟩)
    · next hnone =>
      refine .kept hset fun tag' d' sub' heq hd' hsequential => ?_
      cases heq
      cases hd.symm.trans hd'
      obtain ⟨staleTimeout, hstale⟩ := Option.isSome_iff_exists.mp hsequential
      rw [OrderedMap.not_mem_iff]
      cases hp : s.processors.get? d.subscription with
      | none => rfl
      | some p =>
        rw [← hset] at hp
        exact (hnone staleTimeout p hstale hp).elim
  | undecodable | callbackRejected => exact .kept (setStage_processors _).2 (fun _ _ _ heq => by cases heq)
  | callbackResolved =>
    refine .kept ?_ (fun _ _ _ heq => by cases heq)
    unfold State.complete
    dsimp only
    split <;> exact (setStage_processors _).2.trans (settleAck_processors ..).2
  | caught =>
    refine .kept ((setStage_processors _).2.trans ?_) (fun _ _ _ heq => by cases heq)
    unfold State.catchError
    split
    · rfl
    · split
      · rfl
      · exact (settleAck_processors ..).2
  | @processor id sub p staleTimeout event r hsub hp hsequential hlater hs =>
    have hreported : ∀ o ∈ r.2, ∀ t, o.ends t → t ∈ (s.advance env id sub r).finished :=
      fun o ho t ht => (mem_advance_finished _).mpr (.inr ⟨o, ho, ht⟩)
    have hprocessors : (s.advance env id sub r).processors = s.processors.set id r.1 :=
      (advance_processors r).2
    have hsteps := SequentialProcessor.step_cases hs
    cases hthrow : throwing p event with
    | none =>
      refine .moves hp hlater hsteps hprocessors hreported fun t ht => ?_
      cases hthrow.symm.trans (throwing_of_throws ht)
    | some tag =>
      refine .moves hp hlater hsteps hprocessors
        (fun o ho t ht => List.mem_cons_of_mem _ (hreported o ho t ht)) fun t ht => ?_
      cases hthrow.symm.trans (throwing_of_throws ht)
      exact List.mem_cons_self
  | ackMessage =>
    refine .kept ?_ (fun _ _ _ heq => by cases heq)
    unfold State.ackMessage
    split
    · rfl
    · exact (settle_processors ..).2
  | nackMessage =>
    refine .kept ?_ (fun _ _ _ heq => by cases heq)
    unfold State.nackMessage
    split
    · rfl
    · exact (settle_processors ..).2

/-- A sequential subscription has its processor. -/
def Equipped (s : State α) : Prop :=
  ∀ id sub, s.subscriptions.get? id = some sub → sub.sequential.isSome → id ∈ s.processors

omit [DecidableEq α] [ToString α] in
theorem equipped_start : Equipped (start : State α) := by
  intro id sub hsub
  cases hsub

theorem Steps.equipped {event : Event α} (H : Steps env s event s') (h : Equipped s) :
    Equipped s' := by
  have hkept : ∀ i, i ∈ s.processors → i ∈ s'.processors := by
    intro i hi
    cases H.processors with
    | kept hprocessors => rwa [hprocessors]
    | starts _ hprocessors | takes _ _ _ _ hprocessors | moves _ _ _ hprocessors =>
      rw [hprocessors]
      exact OrderedMap.mem_set.mpr (.inr hi)
  cases event with
  | subscribe id sub =>
    cases H with
    | subscribe hfresh =>
      intro i sub' hsub hsequential
      rw [OrderedMap.get?_set] at hsub
      split at hsub
      · next hi =>
        cases hsub
        rw [hi]
        dsimp only
        rw [if_pos hsequential]
        exact OrderedMap.mem_set.mpr (.inl rfl)
      · exact hkept i (h i sub' hsub hsequential)
  | _ =>
    intro i sub' hsub hsequential
    rw [H.subscriptions (by simp)] at hsub
    exact hkept i (h i sub' hsub hsequential)

/-! ## Custody -/

/-- The processor of its subscription retains the delivery. -/
def State.Held (s : State α) (tag : Nat) : Prop :=
  ∃ id p, s.subscriptionOf tag = some id ∧ s.processors.get? id = some p ∧ p.Retains tag

/-- In whose hands a delivery is. -/
inductive Kept (s : State α) (tag : Nat) : Prop
  | decoding {id : Nat} (hplace : s.place? tag = some (id, .decoding))
  | finished (hfinished : tag ∈ s.finished)
  | held (hheld : s.Held tag)

/-- A delivery stays with its subscription. -/
theorem Steps.subscriptionOf {event : Event α} (H : Steps env s event s') (hrunning : Running s)
    (htags : ∀ tag d, s.deliveries.get? tag = some d → d.message.tag = tag)
    (hid : s.subscriptionOf tag = some id) : s'.subscriptionOf tag = some id := by
  cases event with
  | deliver id' message =>
    cases H with
    | deliver hsub hfresh =>
      rw [State.subscriptionOf, place?_set, if_neg]
      · exact hid
      · rintro rfl
        rw [State.subscriptionOf, State.place?, OrderedMap.not_mem_iff.mp hfresh] at hid
        cases hid
  | _ => exact ((H.moves hrunning htags (by simp)).1.subscription tag).trans hid

/-- What a processor retains it hands on to nobody else. -/
theorem Steps.held {event : Event α} (H : Steps env s event s') (hrunning : Running s)
    (htags : ∀ tag d, s.deliveries.get? tag = some d → d.message.tag = tag)
    (hlive : ∀ id, event ≠ .processor id .dispose) (hheld : s.Held tag) :
    tag ∈ s'.finished ∨ s'.Held tag := by
  obtain ⟨id, p, hid, hp, hretains⟩ := hheld
  have hid' := H.subscriptionOf hrunning htags hid
  have hsame : ∀ {i q}, s'.processors = s.processors.set i q → id ≠ i → s'.Held tag := by
    intro i q hprocessors hne
    refine ⟨id, p, hid', ?_, hretains⟩
    rw [hprocessors, OrderedMap.get?_set, if_neg hne]
    exact hp
  have hown : ∀ {r : SequentialProcessor.State α × List (SequentialProcessor.Output α)},
      s'.processors = s.processors.set id r.1 →
      (∀ o ∈ r.2, ∀ t, o.ends t → t ∈ s'.finished) →
      SequentialProcessor.Retained tag r → tag ∈ s'.finished ∨ s'.Held tag := by
    intro r hprocessors hreported hretained
    cases hretained with
    | retains hretains =>
      exact .inr ⟨id, r.1, hid', by rw [hprocessors, OrderedMap.get?_set_self], hretains⟩
    | ended ho hends => exact .inl (hreported _ ho _ hends)
  cases H.processors with
  | kept hprocessors => exact .inr ⟨id, p, hid', hprocessors ▸ hp, hretains⟩
  | @starts i sub hfresh hprocessors =>
    refine .inr (hsame hprocessors ?_)
    rintro rfl
    obtain ⟨sub', hsub, -⟩ := hrunning.sequential _ p hp
    exact hfresh (OrderedMap.mem_of_get? hsub)
  | @takes tag' d sub p' r hd hstage hp' hr hprocessors hreported =>
    rcases eq_or_ne id d.subscription with rfl | hne
    · cases hp.symm.trans hp'
      refine hown hprocessors hreported ?_
      rw [hr]
      refine SequentialProcessor.deliver_retains (fun hmem => ?_) (.inl hretains)
      have hplace := place?_of_get? (lookup_eq_some.mp hd).1
      rw [hstage, ← htags _ _ (lookup_eq_some.mp hd).1] at hplace
      cases hplace.symm.trans (hrunning.called _ p hp _ hmem)
    · exact .inr (hsame hprocessors hne)
  | @moves i sub p' c event r hp' hlater hs hprocessors hreported hthrown =>
    rcases eq_or_ne id i with rfl | hne
    · cases hp.symm.trans hp'
      have hdispose : event ≠ .dispose := by
        rintro rfl
        exact hlive _ rfl
      rcases hs.retains hlater hdispose hretains with hr | hthrows
      · exact hown hprocessors hreported hr
      · exact .inl (hthrown _ hthrows)
    · exact .inr (hsame hprocessors hne)

/-- A delivery whose content was decoded is in the hands of its processor, unless it is finished. -/
theorem Steps.taken (H : Steps env s (.decoded tag) s') (hrunning : Running s)
    (hequipped : Equipped s)
    (htags : ∀ tag d, s.deliveries.get? tag = some d → d.message.tag = tag)
    (hl : s.lookup tag = some (d, sub)) (hsequential : sub.sequential.isSome) :
    tag ∈ s'.finished ∨ s'.Held tag := by
  obtain ⟨hget, hsub⟩ := lookup_eq_some.mp hl
  have htag := htags _ _ hget
  cases H.processors with
  | kept _ hdecoded =>
    exact absurd (hequipped _ _ hsub hsequential) (hdecoded tag d sub rfl hl hsequential)
  | @takes _ d' sub' p r hd hstage hp hr hprocessors hreported =>
    cases hl.symm.trans hd
    have hid' := H.subscriptionOf hrunning htags (subscriptionOf_of_lookup hl)
    have hretained : SequentialProcessor.Retained tag r := by
      rw [hr]
      refine SequentialProcessor.deliver_retains (fun hmem => ?_) (.inr htag)
      have hplace := place?_of_get? hget
      rw [hstage, ← htag] at hplace
      cases hplace.symm.trans (hrunning.called _ p hp _ hmem)
    cases hretained with
    | retains hretains =>
      exact .inr ⟨_, r.1, hid', by rw [hprocessors, OrderedMap.get?_set_self], hretains⟩
    | ended ho hends => exact .inl (hreported _ ho _ hends)

/-- The callback of a delivery that is being decoded goes on in one of two ways. -/
theorem Steps.decodes {event : Event α} (H : Steps env s event s') (hrunning : Running s)
    (hplace : s.place? tag = some (id, .decoding)) (hevent : event.delivery? = some tag) :
    event = .decoded tag ∨ ∃ error, event = .undecodable tag error := by
  have hstage : ∀ {d sub}, s.lookup tag = some (d, sub) → d.stage = .decoding := by
    intro d sub hl
    rw [place?_of_get? (lookup_eq_some.mp hl).1] at hplace
    exact (Prod.mk.inj (Option.some.inj hplace)).2
  cases H with
  | subscribe | deliver | ackMessage | nackMessage => cases hevent
  | decoded => cases hevent; exact .inl rfl
  | undecodable => cases hevent; exact .inr ⟨_, rfl⟩
  | callbackResolved hd hhandling | callbackRejected hd hhandling | caught hd hhandling =>
    cases hevent
    cases (hstage hd).symm.trans hhandling
  | processor hsub hp hsequential hlater hs =>
    rcases (SequentialProcessor.step_cases hs).answers hlater with ⟨root, hroot, hmem, -⟩ | ⟨hroot, -⟩
    · cases hroot.symm.trans hevent
      cases hplace.symm.trans (hrunning.called _ _ hp _ hmem)
    · cases hroot.symm.trans hevent

/-- A step of the pipeline other than `dispose` keeps a delivery of a sequential subscription in
somebody's hands. -/
theorem Steps.kept {event : Event α} (H : Steps env s event s') (hrunning : Running s)
    (hequipped : Equipped s)
    (htags : ∀ tag d, s.deliveries.get? tag = some d → d.message.tag = tag)
    (hlive : ∀ id, event ≠ .processor id .dispose) (hl : s.lookup tag = some (d, sub))
    (hsequential : sub.sequential.isSome) (h : Kept s tag) : Kept s' tag := by
  have hof : tag ∈ s'.finished ∨ s'.Held tag → Kept s' tag := by
    rintro (hfinished | hheld)
    · exact .finished hfinished
    · exact .held hheld
  cases h with
  | finished hfinished => exact .finished (H.finished_mono hfinished)
  | held hheld => exact hof (H.held hrunning htags hlive hheld)
  | @decoding id hplace =>
    by_cases hevent : event.delivery? = some tag
    · rcases H.decodes hrunning hplace hevent with rfl | ⟨error, rfl⟩
      · exact hof (H.taken hrunning hequipped htags hl hsequential)
      · cases H with
        | undecodable =>
          refine .finished ?_
          rw [setStage_finished]
          exact List.mem_cons_self
    · cases event with
      | deliver i message =>
        cases H with
        | deliver hsub hfresh =>
          refine .decoding (?_ : State.place? _ _ = some (id, _))
          rw [place?_set, if_neg]
          · exact hplace
          · rintro rfl
            rw [State.place?, OrderedMap.not_mem_iff.mp hfresh] at hplace
            cases hplace
      | _ => exact .decoding (((H.moves hrunning htags (by simp)).1.others tag hevent).trans hplace)

end ConsumePipeline
end RabbitMQ
